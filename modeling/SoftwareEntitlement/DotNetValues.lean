import Mathlib.Algebra.Group.Int.Defs
import Mathlib.Data.List.Dedup
import Mathlib.Data.Int.Order.Basic
import Mathlib.Order.Lattice
import Mathlib.Order.Nat

/-!
# Values of the .NET runtime

The data types of the platform which the server code computes with: instants,
durations, addresses, immutable sets and nullable strings.  Whatever the
platform decides by tables or culture data (case mapping, address and duration
syntax, time formatting, the local time zone) is a field of `Runtime`.
-/

namespace SoftwareEntitlement

/-- Exceptions raised by, or passing through, the modelled code. -/
inductive ClrException where
  | nullReference
  | argumentNull (paramName : String)
  | argument (message paramName : String)
  | argumentOutOfRange
  | overflow
  | cryptographic (message : String)
  | invalidOperation (message : String)
  | platformNotSupported (message : String)
  deriving DecidableEq, Repr

abbrev Throws := Except ClrException

/-! ## Instants and durations -/

/-- `DateTime.MaxValue.Ticks`, in units of 100 nanoseconds. -/
def maxTicks : ℕ := 3155378975999999999

def ticksPerSecond : ℕ := 10000000

inductive DateTimeKind where
  | unspecified
  | utc
  | local
  deriving DecidableEq, Repr

structure DateTime where
  ticks : ℕ
  inRange : ticks ≤ maxTicks
  kind : DateTimeKind
  deriving DecidableEq

/-- `DateTime.MinValue`, of unspecified kind. -/
def DateTime.minValue : DateTime := ⟨0, Nat.zero_le _, .unspecified⟩

/-- A point in time.  Its offset is not recorded: comparisons and all uses in
the server go by the UTC instant. -/
structure DateTimeOffset where
  ticks : ℕ
  inRange : ticks ≤ maxTicks
  deriving DecidableEq

structure TimeSpan where
  ticks : ℤ
  lower : -2 ^ 63 ≤ ticks
  upper : ticks < 2 ^ 63
  deriving DecidableEq

theorem DateTimeOffset.ticks_injective :
    Function.Injective DateTimeOffset.ticks := by
  intro a b h
  cases a
  cases b
  simpa using h

instance : LinearOrder DateTimeOffset :=
  LinearOrder.lift' DateTimeOffset.ticks DateTimeOffset.ticks_injective

def DateTimeOffset.minValue : DateTimeOffset := ⟨0, Nat.zero_le _⟩

instance : Inhabited DateTimeOffset := ⟨DateTimeOffset.minValue⟩

/-- `DateTimeOffset.Add`: throws when the sum leaves the years 1 to 9999. -/
def DateTimeOffset.add (instant : DateTimeOffset) (duration : TimeSpan) :
    Throws DateTimeOffset :=
  let sum := (instant.ticks : ℤ) + duration.ticks
  if h : 0 ≤ sum ∧ sum ≤ maxTicks then
    .ok ⟨sum.toNat, by omega⟩
  else
    .error .argumentOutOfRange

theorem DateTimeOffset.ticks_of_add {instant sum : DateTimeOffset}
    {duration : TimeSpan} (hadd : instant.add duration = .ok sum) :
    (sum.ticks : ℤ) = instant.ticks + duration.ticks := by
  unfold DateTimeOffset.add at hadd
  simp only at hadd
  split at hadd
  next hrange =>
    cases hadd
    exact Int.toNat_of_nonneg hrange.1
  next => cases hadd

def DateTimeOffset.utcDateTime (instant : DateTimeOffset) : DateTime :=
  ⟨instant.ticks, instant.inRange, .utc⟩

def DateTimeOffset.truncateToSecond (instant : DateTimeOffset) :
    DateTimeOffset :=
  ⟨instant.ticks - instant.ticks % ticksPerSecond,
    Nat.le_trans (Nat.sub_le _ _) instant.inRange⟩

/-- `new DateTimeOffset(DateTime)`: a time which is not marked UTC is taken in
the local zone, and the constructor throws when its UTC instant is not
representable. -/
def DateTimeOffset.ofDateTime (localOffset : DateTime → ℤ) (time : DateTime) :
    Throws DateTimeOffset :=
  match time.kind with
  | .utc => .ok ⟨time.ticks, time.inRange⟩
  | _ =>
      let utcTicks := (time.ticks : ℤ) - localOffset time
      if h : 0 ≤ utcTicks ∧ utcTicks ≤ maxTicks then
        .ok ⟨utcTicks.toNat, by omega⟩
      else
        .error .argumentOutOfRange

theorem DateTimeOffset.ofDateTime_minValue (localOffset : DateTime → ℤ) :
    (∃ instant, DateTimeOffset.ofDateTime localOffset .minValue = .ok instant) ↔
      0 ≤ -localOffset .minValue ∧ -localOffset .minValue ≤ maxTicks := by
  have hzero : ((DateTime.minValue.ticks : ℕ) : ℤ) - localOffset .minValue =
      -localOffset .minValue := Int.zero_sub _
  rw [← hzero]
  have hkind : DateTime.minValue.kind = .unspecified := rfl
  simp only [DateTimeOffset.ofDateTime, hkind]
  split
  next hrange => simpa using hrange
  next hrange => simpa using hrange

theorem DateTimeOffset.ofDateTime_utc (localOffset : DateTime → ℤ)
    {time : DateTime} (hutc : time.kind = .utc) :
    DateTimeOffset.ofDateTime localOffset time =
      .ok ⟨time.ticks, time.inRange⟩ := by
  simp [DateTimeOffset.ofDateTime, hutc]

@[simp] theorem DateTimeOffset.utcDateTime_ticks (instant : DateTimeOffset) :
    instant.utcDateTime.ticks = instant.ticks := rfl

/-! ## Addresses, identifiers and sets -/

inductive IPAddress where
  | v4 (address : BitVec 32)
  | v6 (address : BitVec 128) (scopeId : ℕ)
  deriving DecidableEq

/-- A `Guid`, by its 32 hexadecimal digits. -/
structure Guid where
  digits : String
  deriving DecidableEq, Inhabited

def Guid.toStringN (guid : Guid) : String := guid.digits

/-- `Guid.ToString()`: the digits in groups of 8, 4, 4, 4 and 12. -/
def Guid.toString (guid : Guid) : String :=
  let digits := guid.digits.toList
  let group start length := (digits.drop start).take length
  String.ofList
    (group 0 8 ++ '-' :: group 8 4 ++ '-' :: group 12 4 ++ '-' ::
      group 16 4 ++ '-' :: group 20 12)

/-- `ImmutableHashSet<T>`, by the order in which it is enumerated. -/
structure ImmutableHashSet (α : Type) where
  items : List α
  nodup : items.Nodup

namespace ImmutableHashSet

variable {α : Type}

instance : Membership α (ImmutableHashSet α) := ⟨fun set a => a ∈ set.items⟩

theorem mem_def {set : ImmutableHashSet α} {a : α} :
    a ∈ set ↔ a ∈ set.items := Iff.rfl

def empty : ImmutableHashSet α := ⟨[], List.nodup_nil⟩

instance : Inhabited (ImmutableHashSet α) := ⟨empty⟩

def createRange [DecidableEq α] (items : List α) : ImmutableHashSet α :=
  ⟨items.dedup, items.nodup_dedup⟩

def union [DecidableEq α] (first second : ImmutableHashSet α) :
    ImmutableHashSet α :=
  createRange (first.items ++ second.items)

/-- Equality as sets: the enumeration order is not observable. -/
def SetEq (first second : ImmutableHashSet α) : Prop :=
  ∀ a, a ∈ first ↔ a ∈ second

@[simp] theorem mem_createRange [DecidableEq α] {items : List α} {a : α} :
    a ∈ createRange items ↔ a ∈ items :=
  List.mem_dedup

theorem mem_union [DecidableEq α] {first second : ImmutableHashSet α} {a : α} :
    a ∈ first.union second ↔ a ∈ first ∨ a ∈ second := by
  rw [union, mem_createRange, List.mem_append]
  rfl

theorem dedup_dedup_append [DecidableEq α] (xs ys : List α) :
    (xs.dedup ++ ys).dedup = (xs ++ ys).dedup := by
  induction xs with
  | nil => rfl
  | cons x xs ih =>
      by_cases hmem : x ∈ xs
      · rw [List.dedup_cons_of_mem hmem, ih, List.cons_append,
          List.dedup_cons_of_mem (List.mem_append_left _ hmem)]
      · rw [List.dedup_cons_of_notMem hmem, List.cons_append, List.cons_append]
        by_cases hrest : x ∈ ys
        · rw [List.dedup_cons_of_mem (List.mem_append_right _ hrest), ih,
            List.dedup_cons_of_mem (List.mem_append_right _ hrest)]
        · rw [List.dedup_cons_of_notMem, List.dedup_cons_of_notMem, ih]
          · simp [hmem, hrest]
          · simp [hmem, hrest]

theorem union_assoc [DecidableEq α] (first second third : ImmutableHashSet α) :
    (first.union second).union third = first.union (second.union third) := by
  simp only [union, createRange, mk.injEq, dedup_dedup_append,
    List.append_assoc]
  rw [List.dedup_append first.items (List.dedup _), List.dedup_idem,
    ← List.dedup_append]

end ImmutableHashSet

/-! ## Strings -/

def isNullOrEmpty : Option String → Bool
  | none => true
  | some text => text == ""

theorem isNullOrEmpty_eq_false {text : Option String} :
    isNullOrEmpty text = false ↔ ∃ value, text = some value ∧ value ≠ "" := by
  cases text <;> simp [isNullOrEmpty]

/-- `char.IsWhiteSpace`: the Unicode separators and the control characters
which count as white space. -/
def isWhiteSpace (c : Char) : Bool :=
  let code := c.toNat
  (9 ≤ code && code ≤ 13) || code == 0x20 || code == 0x85 || code == 0xA0 ||
    code == 0x1680 || (0x2000 ≤ code && code ≤ 0x200A) || code == 0x2028 ||
    code == 0x2029 || code == 0x202F || code == 0x205F || code == 0x3000

def trim (text : String) : String :=
  String.ofList
    (((text.toList.dropWhile isWhiteSpace).reverse.dropWhile
      isWhiteSpace).reverse)

/-- The UTF-16 code units of a string. -/
def codeUnits (text : String) : List ℕ :=
  text.toList.flatMap fun c =>
    if c.toNat < 0x10000 then [c.toNat]
    else
      [0xD800 + (c.toNat - 0x10000) / 0x400, 0xDC00 + (c.toNat - 0x10000) % 0x400]

/-- What `XmlConvert.ToTimeSpan` throws. -/
inductive DurationError where
  | format (message : String)
  | overflow
  deriving DecidableEq, Repr

/-- The parts of the platform which the code calls and does not define. -/
structure Runtime where
  toUpperInvariant : Char → Char
  tryParseAddress : String → Option IPAddress
  addressToString : IPAddress → String
  toTimeSpan : String → Except DurationError TimeSpan
  /-- `DateTime.ToString("yyyy-MM-ddTHH:mm")` in the invariant culture. -/
  formatTimestamp : DateTime → String
  /-- `DateTimeOffset.ToString("O")` of a UTC instant. -/
  formatRoundtrip : DateTimeOffset → String
  /-- The offset of the local time zone, in ticks. -/
  localOffset : DateTime → ℤ

/-- `string.Equals(a, b, StringComparison.OrdinalIgnoreCase)`. -/
def Runtime.equalsOrdinalIgnoreCase (runtime : Runtime) (a b : String) : Bool :=
  a.toList.map runtime.toUpperInvariant == b.toList.map runtime.toUpperInvariant

end SoftwareEntitlement
