import SoftwareEntitlement.DotNetValues
import Mathlib.Logic.Equiv.List
import Mathlib.Tactic.DeriveEncodable

/-!
# A reference platform

One instance of the platform functions, with which concrete requests can be
evaluated.  Addresses are written in unary, letters are upper-cased in the
ASCII range, and the one duration which is understood is an hour.  Values are
numbered, so that reference libraries can write them in unary.
-/

namespace SoftwareEntitlement

namespace ReferenceRuntime

def addressToString : IPAddress → String
  | .v4 address => String.ofList ('4' :: List.replicate address.toNat 'x')
  | .v6 address scopeId =>
      String.ofList ('6' :: (List.replicate address.toNat 'x' ++
        '%' :: List.replicate scopeId 'x'))

def tryParseAddress (text : String) : Option IPAddress :=
  match text.toList with
  | '4' :: address => some (.v4 (BitVec.ofNat 32 address.length))
  | '6' :: rest =>
      let address := rest.takeWhile (· == 'x')
      let scopeId := rest.drop (address.length + 1)
      some (.v6 (BitVec.ofNat 128 address.length) scopeId.length)
  | _ => none

theorem tryParseAddress_addressToString (address : IPAddress) :
    tryParseAddress (addressToString address) = some address := by
  cases address with
  | v4 address => simp [tryParseAddress, addressToString]
  | v6 address scopeId =>
      have htake : (List.replicate address.toNat 'x' ++
          '%' :: List.replicate scopeId 'x').takeWhile (· == 'x') =
            List.replicate address.toNat 'x' := by
        rw [List.takeWhile_append_of_pos (by simp)]
        simp
      simp [tryParseAddress, addressToString, htake]
      omega

def hour : TimeSpan := ⟨36000000000, by decide, by decide⟩

def toTimeSpan (text : String) : Except DurationError TimeSpan :=
  if text == "PT1H" then .ok hour
  else .error (.format "The string is not a valid TimeSpan value.")

end ReferenceRuntime

def Runtime.reference : Runtime where
  toUpperInvariant := Char.toUpper
  tryParseAddress := ReferenceRuntime.tryParseAddress
  addressToString := ReferenceRuntime.addressToString
  toTimeSpan := ReferenceRuntime.toTimeSpan
  formatTimestamp time := toString time.ticks
  formatRoundtrip instant := toString instant.ticks
  localOffset _ := 0

theorem toNat_toUpper (c : Char) :
    c.toUpper.toNat =
      if 97 ≤ c.toNat ∧ c.toNat ≤ 122 then c.toNat - 32 else c.toNat := by
  have hlower : ('a'.val ≤ c.val ∧ c.val ≤ 'z'.val) ↔
      97 ≤ c.toNat ∧ c.toNat ≤ 122 := Iff.rfl
  by_cases h : 'a'.val ≤ c.val ∧ c.val ≤ 'z'.val
  · have hupper : c.toUpper.val = c.val + ('A'.val - 'a'.val) := by
      delta Char.toUpper
      rw [dif_pos h]
    have hshift : ('A'.val - 'a'.val).toNat = 2 ^ 32 - 32 := rfl
    have hnat := congrArg UInt32.toNat hupper
    rw [UInt32.toNat_add, hshift] at hnat
    have hrange : 97 ≤ c.val.toNat ∧ c.val.toNat ≤ 122 := h
    rw [if_pos (hlower.mp h)]
    change c.toUpper.val.toNat = c.val.toNat - 32
    omega
  · have hsame : c.toUpper = c := dif_neg h
    rw [if_neg (fun hrange => h (hlower.mpr hrange)), hsame]

/-- An instant at which the concrete requests are made. -/
def referenceMoment : DateTimeOffset := ⟨630000000000000000, by decide⟩

/-! ## Numbers of values -/

instance encodableChar : Encodable Char :=
  Encodable.ofLeftInverse Char.toNat Char.ofNat Char.ofNat_toNat

instance encodableString : Encodable String :=
  Encodable.ofLeftInverse String.toList String.ofList
    fun _ => String.ofList_toList

instance encodableDateTimeOffset : Encodable DateTimeOffset :=
  Encodable.ofLeftInjection DateTimeOffset.ticks
    (fun ticks => if h : ticks ≤ maxTicks then some ⟨ticks, h⟩ else none)
    fun instant => by simp [instant.inRange]

end SoftwareEntitlement
