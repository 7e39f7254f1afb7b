import SoftwareEntitlement.CertificatePins
import Mathlib.Data.List.Forall2
import Mathlib.Tactic.IntervalCases

/-!
# Decoding thumbprints

`ThumbprintToBinary` drops whatever is not a hexadecimal digit, counts the
digits, and reads them in pairs.  It returns the bytes which the digits
render, each digit in either case, and refuses every other number of digits
before the list of pins changes.
-/

namespace SoftwareEntitlement

/-! ## Hexadecimal renderings -/

/-- The character is a hexadecimal digit with this value, in either case. -/
def RendersDigit (value : ℕ) (digit : Char) : Prop :=
  "0123456789abcdef".toList[value]? = some digit ∨
    "0123456789ABCDEF".toList[value]? = some digit

def hexValues (byte : UInt8) : List ℕ := [byte.toNat / 16, byte.toNat % 16]

/-- The digits are a hexadecimal rendering of the bytes, high digit first. -/
def RendersBytes (bytes : List UInt8) (digits : List Char) : Prop :=
  List.Forall₂ RendersDigit (bytes.flatMap hexValues) digits

theorem RendersDigit.lt {value : ℕ} {digit : Char}
    (hrenders : RendersDigit value digit) : value < 16 := by
  rcases hrenders with hlower | hupper
  · exact (List.getElem?_eq_some_iff.mp hlower).1
  · exact (List.getElem?_eq_some_iff.mp hupper).1

theorem RendersDigit.xDigitValue_eq {value : ℕ} {digit : Char}
    (hrenders : RendersDigit value digit) : xDigitValue digit = value := by
  have hlt := hrenders.lt
  rcases hrenders with hlower | hupper
  · interval_cases value <;> cases hlower <;> decide
  · interval_cases value <;> cases hupper <;> decide

theorem mem_hexDigits_of_isXDigit {digit : Char} (hdigit : isXDigit digit = true) :
    digit ∈ "0123456789abcdefABCDEF".toList := by
  have hofNat : Char.ofNat digit.toNat = digit := Char.ofNat_toNat digit
  simp only [isXDigit, Char.isDigit, Bool.or_eq_true, Bool.and_eq_true,
    decide_eq_true_eq, ge_iff_le, Char.le_def, UInt32.le_iff_toNat_le] at hdigit
  have hranges : (48 ≤ digit.toNat ∧ digit.toNat ≤ 57) ∨
      (97 ≤ digit.toNat ∧ digit.toNat ≤ 102) ∨
      (65 ≤ digit.toNat ∧ digit.toNat ≤ 70) := by
    rcases hdigit with (hdecimal | hlower) | hupper
    · exact .inl hdecimal
    · exact .inr (.inl hlower)
    · exact .inr (.inr hupper)
  rw [← hofNat]
  generalize digit.toNat = code at hranges
  rcases hranges with ⟨hlow, hhigh⟩ | ⟨hlow, hhigh⟩ | ⟨hlow, hhigh⟩
  · interval_cases code <;> decide
  · interval_cases code <;> decide
  · interval_cases code <;> decide

theorem rendersDigit_xDigitValue {digit : Char} (hdigit : isXDigit digit = true) :
    RendersDigit (xDigitValue digit) digit := by
  have hall : ("0123456789abcdefABCDEF".toList.all fun c =>
      "0123456789abcdef".toList[xDigitValue c]? == some c ||
        "0123456789ABCDEF".toList[xDigitValue c]? == some c) = true := by
    decide
  have hrenders := List.all_eq_true.mp hall digit
    (mem_hexDigits_of_isXDigit hdigit)
  rwa [Bool.or_eq_true, beq_iff_eq, beq_iff_eq] at hrenders

theorem rendersDigit_iff {value : ℕ} {digit : Char}
    (hdigit : isXDigit digit = true) :
    RendersDigit value digit ↔ xDigitValue digit = value := by
  constructor
  · exact RendersDigit.xDigitValue_eq
  · rintro rfl
    exact rendersDigit_xDigitValue hdigit

theorem forall₂_rendersDigit_iff {values : List ℕ} {digits : List Char}
    (hdigits : ∀ digit ∈ digits, isXDigit digit = true) :
    List.Forall₂ RendersDigit values digits ↔
      digits.map xDigitValue = values := by
  induction digits generalizing values with
  | nil =>
      cases values with
      | nil => simp
      | cons value values => simp
  | cons digit digits ih =>
      have hhead := hdigits digit List.mem_cons_self
      have htail := fun c hc => hdigits c (List.mem_cons_of_mem _ hc)
      cases values with
      | nil => simp
      | cons value values =>
          rw [List.forall₂_cons, ih htail, rendersDigit_iff hhead,
            List.map_cons, List.cons.injEq]

/-! ## Reading digits in pairs -/

theorem hexValues_ofNat {high low : ℕ} (hhigh : high < 16) (hlow : low < 16) :
    hexValues (UInt8.ofNat (16 * high + low)) = [high, low] := by
  have hbyte : (UInt8.ofNat (16 * high + low)).toNat = 16 * high + low := by
    rw [UInt8.toNat_ofNat']
    omega
  have hquotient : (16 * high + low) / 16 = high := by omega
  have hremainder : (16 * high + low) % 16 = low := by omega
  rw [hexValues, hbyte, hquotient, hremainder]

theorem ofNat_hexValues (byte : UInt8) :
    UInt8.ofNat (16 * (byte.toNat / 16) + byte.toNat % 16) = byte := by
  have hsum : 16 * (byte.toNat / 16) + byte.toNat % 16 = byte.toNat :=
    Nat.div_add_mod byte.toNat 16
  rw [hsum, UInt8.ofNat_toNat]

def readPairs (digits : List Char) (count : ℕ) : List UInt8 :=
  (List.range count).map fun digit =>
    UInt8.ofNat (stoul16 ((digits.drop (digit * 2)).take 2))

theorem readPairs_cons (high low : Char) (digits : List Char) (count : ℕ) :
    readPairs (high :: low :: digits) (count + 1) =
      UInt8.ofNat (16 * xDigitValue high + xDigitValue low) ::
        readPairs digits count := by
  have hfirst : stoul16 [high, low] =
      16 * xDigitValue high + xDigitValue low := by
    simp [stoul16]
  simp only [readPairs, List.range_succ_eq_map, List.map_cons, List.map_map,
    Nat.zero_mul, List.drop_zero, List.take_succ_cons, List.take_zero, hfirst]
  congr 1
  refine List.map_congr_left fun index _ => ?_
  have hdrop : (index + 1) * 2 = index * 2 + 2 := by omega
  simp only [Function.comp_apply, Nat.succ_eq_add_one, hdrop,
    List.drop_succ_cons]

/-- Reading the digits of any bytes in pairs gives these bytes. -/
theorem readPairs_eq_iff {digits : List Char} {bytes : List UInt8}
    (hdigits : ∀ digit ∈ digits, isXDigit digit = true) (count : ℕ)
    (hlength : digits.length = 2 * count) (hsize : bytes.length = count) :
    readPairs digits count = bytes ↔
      digits.map xDigitValue = bytes.flatMap hexValues := by
  induction count generalizing digits bytes with
  | zero =>
      obtain rfl : digits = [] := List.eq_nil_of_length_eq_zero hlength
      obtain rfl : bytes = [] := List.eq_nil_of_length_eq_zero hsize
      simp [readPairs]
  | succ count ih =>
      match digits, bytes, hlength, hsize with
      | high :: low :: digits, byte :: bytes, hlength, hsize =>
          have hhigh := (rendersDigit_xDigitValue
            (hdigits high List.mem_cons_self)).lt
          have hlow := (rendersDigit_xDigitValue
            (hdigits low (List.mem_cons_of_mem _ List.mem_cons_self))).lt
          have htail : ∀ digit ∈ digits, isXDigit digit = true := fun c hc =>
            hdigits c (List.mem_cons_of_mem _ (List.mem_cons_of_mem _ hc))
          have hpairs : digits.length = 2 * count := by
            simp only [List.length_cons] at hlength
            omega
          have hbytes : bytes.length = count := by simpa using hsize
          have hrest : readPairs digits count = bytes ↔
              digits.map xDigitValue = bytes.flatMap hexValues :=
            ih htail hpairs hbytes
          have hbyte : UInt8.ofNat (16 * xDigitValue high + xDigitValue low) =
              byte ↔ [xDigitValue high, xDigitValue low] = hexValues byte := by
            constructor
            · rintro rfl
              exact (hexValues_ofNat hhigh hlow).symm
            · intro hvalues
              obtain ⟨hhigh, hlow⟩ : xDigitValue high = byte.toNat / 16 ∧
                  xDigitValue low = byte.toNat % 16 := by
                simpa [hexValues] using hvalues
              rw [hhigh, hlow, ofNat_hexValues]
          rw [readPairs_cons, List.cons.injEq, hbyte, hrest]
          simp [hexValues, and_assoc]

/-! ## What `ThumbprintToBinary` returns -/

def hexDigits (text : String) : List Char := text.toList.filter isXDigit

theorem isXDigit_of_mem_hexDigits {text : String} :
    ∀ digit ∈ hexDigits text, isXDigit digit = true :=
  fun _ hmem => (List.mem_filter.mp hmem).2

theorem length_stripNonHexThumbprintDigits (text : String) :
    (stripNonHexThumbprintDigits text).length = (hexDigits text).length := by
  simp [stripNonHexThumbprintDigits, hexDigits]

theorem thumbprintToBinary_of_length {text : String}
    (hlength : (hexDigits text).length = 40) :
    ∃ hsize, thumbprintToBinary text =
      .ok ⟨readPairs (hexDigits text) 20, hsize⟩ := by
  have hdigits : (stripNonHexThumbprintDigits text).length = 40 := by
    rw [length_stripNonHexThumbprintDigits, hlength]
  have htoList : (stripNonHexThumbprintDigits text).toList = hexDigits text :=
    String.toList_ofList
  refine ⟨by simp [readPairs], ?_⟩
  simp only [thumbprintToBinary, hdigits, ne_eq, not_true_eq_false, if_false,
    htoList, readPairs]

theorem thumbprintToBinary_of_length_ne {text : String}
    (hlength : (hexDigits text).length ≠ 40) :
    thumbprintToBinary text = .error (.exception
      ("Malformed thumbprint: '" ++ stripNonHexThumbprintDigits text ++ "'")) := by
  have hdigits : (stripNonHexThumbprintDigits text).length ≠ 40 := by
    rw [length_stripNonHexThumbprintDigits]
    exact hlength
  simp [thumbprintToBinary, hdigits]

theorem length_flatMap_hexValues (bytes : List UInt8) :
    (bytes.flatMap hexValues).length = 2 * bytes.length := by
  induction bytes with
  | nil => rfl
  | cons byte bytes ih =>
      simp only [List.flatMap_cons, List.length_append, hexValues,
        List.length_cons, List.length_nil, ih]
      omega

theorem thumbprintToBinary_eq_ok_iff {text : String}
    {thumbprint : SHA256Thumbprint} :
    thumbprintToBinary text = .ok thumbprint ↔
      RendersBytes thumbprint.bytes (hexDigits text) := by
  by_cases hlength : (hexDigits text).length = 40
  · obtain ⟨hsize, hdecoded⟩ := thumbprintToBinary_of_length hlength
    have hpairs := readPairs_eq_iff isXDigit_of_mem_hexDigits 20 hlength
      thumbprint.size
    rw [hdecoded, Except.ok.injEq, SHA256Thumbprint.ext_iff, hpairs,
      RendersBytes, forall₂_rendersDigit_iff isXDigit_of_mem_hexDigits]
  · rw [thumbprintToBinary_of_length_ne hlength]
    constructor
    · intro heq
      cases heq
    · intro hrenders
      have htotal := List.Forall₂.length_eq hrenders
      rw [length_flatMap_hexValues, thumbprint.size] at htotal
      exact absurd htotal.symm hlength

/-- `ThumbprintToBinary` is exact, and `AddSslCertificate` of a text with any
other number of digits throws before it touches the pins. -/
theorem thumbprintToBinary_exact (text : String) :
    (∀ thumbprint, thumbprintToBinary text = .ok thumbprint ↔
      RendersBytes thumbprint.bytes (hexDigits text)) ∧
    ((hexDigits text).length ≠ 40 → ∃ message,
      thumbprintToBinary text = .error (.exception message) ∧
        ∀ sslCerts sslCertCommonName,
          PinCall.perform sslCerts
              (.addSslCertificate text sslCertCommonName) =
            .error (.exception message) ∧
          PinCall.apply sslCerts
              (.addSslCertificate text sslCertCommonName) = sslCerts) := by
  refine ⟨fun thumbprint => thumbprintToBinary_eq_ok_iff, fun hlength => ?_⟩
  have hmalformed := thumbprintToBinary_of_length_ne hlength
  refine ⟨_, hmalformed, fun sslCerts sslCertCommonName => ?_⟩
  have hthrows : PinCall.perform sslCerts
      (.addSslCertificate text sslCertCommonName) = .error (.exception
        ("Malformed thumbprint: '" ++ stripNonHexThumbprintDigits text ++
          "'")) := by
    simp [PinCall.perform, hmalformed, bind, Except.bind]
  exact ⟨hthrows, by rw [PinCall.apply, hthrows]⟩

/-- The digits of one thumbprint in either case, with separators between them,
and a text which lacks all digits. -/
theorem thumbprintToBinary_separated :
    thumbprintToBinary
        "97:EF f3-02 86.77 8 9 4B dd 4f 9a c5 3f 78 9b ee 5d f4 ad 86" =
      .ok microsoftItSslSha2.thumbprint ∧
    PinCall.apply [microsoftItSslSha2] (.addSslCertificate "?" "name") =
      [microsoftItSslSha2] := by
  constructor
  · refine ((thumbprintToBinary_exact _).1 _).mpr ?_
    refine (forall₂_rendersDigit_iff isXDigit_of_mem_hexDigits).mpr ?_
    decide
  · obtain ⟨message, -, hpins⟩ :=
      (thumbprintToBinary_exact "?").2 (by decide)
    exact (hpins [microsoftItSslSha2] "name").2

end SoftwareEntitlement
