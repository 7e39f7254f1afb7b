import SoftwareEntitlement.ReferenceRuntime
import SoftwareEntitlement.Results

/-!
# Parsing enumerations

`ParseEnum` wraps `Enum.TryParse`, which accepts more than the name of a
member without regard to case.  It trims the text, reads a decimal numeral as
the underlying value, whether or not a member has this value, and reads a list
of names separated by commas as the union of their bits.
-/

namespace SoftwareEntitlement

/-- An enumeration with the underlying type `int`.  Its names are made of ASCII
letters and differ in more than case. -/
class ClrEnum (TEnum : Type) where
  typeName : String
  members : List TEnum
  name : TEnum → String
  value : TEnum → BitVec 32
  complete : ∀ member, member ∈ members
  named : ∀ member, name member ≠ ""
  letters : ∀ member, (name member).toList.all Char.isAlpha = true
  distinct : ∀ member other,
    (name member).toList.map Char.toUpper =
      (name other).toList.map Char.toUpper → member = other

/-- A value of an enumeration type: any integer, declared or not. -/
structure EnumValue (TEnum : Type) where
  value : BitVec 32
  deriving DecidableEq

def EnumValue.ofMember {TEnum : Type} [ClrEnum TEnum] (member : TEnum) :
    EnumValue TEnum :=
  ⟨ClrEnum.value member⟩

namespace ClrEnum

/-! ## Numerals -/

/-- The sign in front of a numeral, true if negative, and what follows it. -/
def leadingSign : List Char → Bool × List Char
  | '-' :: rest => (true, rest)
  | '+' :: rest => (false, rest)
  | rest => (false, rest)

def isNumberWhite (c : Char) : Bool :=
  c.toNat == 0x20 || (9 ≤ c.toNat && c.toNat ≤ 13)

/-- A decimal integer with an optional sign in front.  As everywhere in .NET,
null characters may follow it. -/
def parseNumeral (text : List Char) : Option ℤ :=
  let (negative, unsigned) := leadingSign text
  let digits := unsigned.takeWhile Char.isDigit
  let rest := (unsigned.dropWhile Char.isDigit).dropWhile isNumberWhite
  if digits.isEmpty || !rest.all (· == '\x00') then none
  else
    let magnitude : ℤ := Nat.ofDigitChars 10 digits 0
    some (if negative then -magnitude else magnitude)

def isInt32 (numeral : ℤ) : Bool :=
  -2 ^ 31 ≤ numeral && numeral < 2 ^ 31

/-! ## Names -/

section Parsing

variable (runtime : Runtime) (TEnum : Type) [ClrEnum TEnum]

/-- The member with this name, without regard to case and to white space
around it. -/
def memberNamed (subvalue : List Char) : Option TEnum :=
  (members : List TEnum).find? fun member =>
    runtime.equalsOrdinalIgnoreCase (trim (String.ofList subvalue)) (name member)

def tryParseByName (text : List Char) : Option (EnumValue TEnum) :=
  let found := (text.splitOn ',').map (memberNamed runtime TEnum)
  if found.all Option.isSome then
    some ⟨(found.filterMap id).foldl (fun bits member => bits ||| value member) 0⟩
  else none

/-- `Enum.TryParse(value, ignoreCase: true)`. -/
def tryParse (text : String) : Option (EnumValue TEnum) :=
  match parseNumeral (trim text).toList with
  | some numeral =>
      if isInt32 numeral then some ⟨BitVec.ofInt 32 numeral⟩ else none
  | none => tryParseByName runtime TEnum (trim text).toList

def parseEnum (text : String) : Result (EnumValue TEnum) String :=
  match tryParse runtime TEnum text with
  | some result => .ok result
  | none =>
      .error ("Failed to parse " ++ text ++ " into " ++ typeName TEnum)

/-- What the options do with an enumeration: they report an error of their
own. -/
theorem onError_parseEnum {ε : Type} (text : String) (error : ε) :
    (parseEnum runtime TEnum text).onError (fun _ => error) =
      (tryParse runtime TEnum text).elim (.error error) .ok := by
  delta parseEnum
  cases tryParse runtime TEnum text <;> rfl

end Parsing

end ClrEnum

/-! ## What is accepted -/

/-- The invariant culture maps the ASCII letters as usual, and leaves white
space alone. -/
structure Runtime.InvariantCasing (runtime : Runtime) : Prop where
  ascii : ∀ c : Char, c.toNat < 128 → runtime.toUpperInvariant c = c.toUpper
  whiteSpace : ∀ c, isWhiteSpace c = true → runtime.toUpperInvariant c = c

theorem isAlpha_iff_toNat (c : Char) :
    c.isAlpha = true ↔
      (65 ≤ c.toNat ∧ c.toNat ≤ 90) ∨ (97 ≤ c.toNat ∧ c.toNat ≤ 122) := by
  delta Char.isAlpha Char.isUpper Char.isLower
  simp [UInt32.le_iff_toNat_le]

theorem not_isWhiteSpace_of_isAlpha {c : Char} (halpha : c.isAlpha = true) :
    isWhiteSpace c = false := by
  have hrange := (isAlpha_iff_toNat c).mp halpha
  simp [isWhiteSpace]
  omega

namespace Runtime.InvariantCasing

variable {runtime : Runtime}

/-- A character which has the upper case of an ASCII letter is not white space,
and is an ASCII letter itself or not in the ASCII range. -/
theorem letter_of_upper_eq (hcasing : runtime.InvariantCasing) {c letter : Char}
    (hletter : letter.isAlpha = true)
    (heq : runtime.toUpperInvariant c = runtime.toUpperInvariant letter) :
    isWhiteSpace c = false ∧ (c.isAlpha = true ∨ 128 ≤ c.toNat) := by
  have hrange := (isAlpha_iff_toNat letter).mp hletter
  rw [hcasing.ascii letter (by omega)] at heq
  have hupper := toNat_toUpper letter
  have hcapital : letter.toUpper.isAlpha = true := by
    rw [isAlpha_iff_toNat]
    split at hupper <;> omega
  constructor
  · by_contra hspace
    rw [Bool.not_eq_false] at hspace
    have hsame := hcasing.whiteSpace c hspace
    rw [← hsame, heq, not_isWhiteSpace_of_isAlpha hcapital] at hspace
    cases hspace
  · by_cases hascii : c.toNat < 128
    · left
      rw [hcasing.ascii c hascii] at heq
      have hnat := congrArg Char.toNat heq
      rw [toNat_toUpper c] at hnat
      rw [isAlpha_iff_toNat] at hcapital ⊢
      split at hnat <;> omega
    · right
      omega

end Runtime.InvariantCasing

namespace ClrEnum

variable {runtime : Runtime} {TEnum : Type} [ClrEnum TEnum] {text : String}
  {member other : TEnum}

/-- The text is the name of the member, without regard to case. -/
def Names (runtime : Runtime) (text : String) (member : TEnum) : Prop :=
  runtime.equalsOrdinalIgnoreCase text (name member) = true

instance (runtime : Runtime) (text : String) (member : TEnum) :
    Decidable (Names runtime text member) :=
  inferInstanceAs (Decidable (_ = true))

theorem names_iff :
    Names runtime text member ↔ text.toList.map runtime.toUpperInvariant =
      (name member).toList.map runtime.toUpperInvariant := by
  simp [Names, Runtime.equalsOrdinalIgnoreCase]

theorem isAlpha_name (member : TEnum) {c : Char}
    (hc : c ∈ (name member).toList) : c.isAlpha = true :=
  List.all_eq_true.mp (letters member) c hc

theorem upper_name (hcasing : runtime.InvariantCasing) (member : TEnum) :
    (name member).toList.map runtime.toUpperInvariant =
      (name member).toList.map Char.toUpper := by
  refine List.map_congr_left fun c hc => hcasing.ascii c ?_
  have hrange := (isAlpha_iff_toNat c).mp (isAlpha_name member hc)
  omega

theorem names_iff_of_ascii (hcasing : runtime.InvariantCasing)
    (hascii : ∀ c ∈ text.toList, c.toNat < 128) :
    Names runtime text member ↔ text.toList.map Char.toUpper =
      (name member).toList.map Char.toUpper := by
  have hupper : text.toList.map runtime.toUpperInvariant =
      text.toList.map Char.toUpper :=
    List.map_congr_left fun c hc => hcasing.ascii c (hascii c hc)
  rw [names_iff, upper_name hcasing, hupper]

theorem Names.unique (hcasing : runtime.InvariantCasing)
    (hnames : Names runtime text member) (hother : Names runtime text other) :
    member = other := by
  rw [names_iff, upper_name hcasing] at hnames hother
  exact distinct member other (hnames.symm.trans hother)

/-- A text in which nothing is white space, a digit or punctuation of ASCII. -/
def Word (text : String) : Prop :=
  ∀ c ∈ text.toList,
    isWhiteSpace c = false ∧ (c.isAlpha = true ∨ 128 ≤ c.toNat)

theorem Names.word (hcasing : runtime.InvariantCasing)
    (hnames : Names runtime text member) : Word text := by
  intro c hc
  have hmem : runtime.toUpperInvariant c ∈
      (name member).toList.map runtime.toUpperInvariant := by
    rw [← names_iff.mp hnames]
    exact List.mem_map_of_mem hc
  obtain ⟨letter, hletter, heq⟩ := List.mem_map.mp hmem
  exact hcasing.letter_of_upper_eq (isAlpha_name member hletter) heq.symm

theorem Names.ne_nil (hnames : Names runtime text member) :
    text.toList ≠ [] := by
  intro hnil
  have hmap := names_iff.mp hnames
  rw [hnil, List.map_nil, eq_comm, List.map_eq_nil_iff,
    String.toList_eq_nil_iff] at hmap
  exact named member hmap

theorem trim_eq_self (hspace : ∀ c ∈ text.toList, isWhiteSpace c = false) :
    trim text = text := by
  have hkeep : ∀ chars : List Char, (∀ c ∈ chars, isWhiteSpace c = false) →
      chars.dropWhile isWhiteSpace = chars := by
    intro chars hchars
    cases chars with
    | nil => rfl
    | cons c chars =>
        rw [List.dropWhile_cons, hchars c List.mem_cons_self]
        rfl
  rw [trim, hkeep text.toList hspace, hkeep text.toList.reverse
    (fun c hc => hspace c (List.mem_reverse.mp hc)), List.reverse_reverse,
    String.ofList_toList]

/-- A text which starts with a letter is no numeral. -/
theorem parseNumeral_cons_eq_none {c : Char} {rest : List Char}
    (hletter : c.isAlpha = true ∨ 128 ≤ c.toNat) :
    parseNumeral (c :: rest) = none := by
  have hdigit : c.isDigit = false := by
    rw [isAlpha_iff_toNat] at hletter
    simp [Char.isDigit, UInt32.le_iff_toNat_le]
    omega
  have hsign : leadingSign (c :: rest) = (false, c :: rest) := by
    have hminus : c ≠ '-' := by
      rintro rfl
      revert hletter
      decide
    have hplus : c ≠ '+' := by
      rintro rfl
      revert hletter
      decide
    simp [leadingSign, hminus, hplus]
  simp [parseNumeral, hsign, hdigit]

theorem names_of_memberNamed {subvalue : List Char}
    (hfound : memberNamed runtime TEnum subvalue = some member) :
    Names runtime (trim (String.ofList subvalue)) member := by
  unfold memberNamed at hfound
  have hholds := List.find?_some hfound
  exact hholds

theorem memberNamed_eq_some_iff (hcasing : runtime.InvariantCasing)
    {subvalue : List Char} :
    memberNamed runtime TEnum subvalue = some member ↔
      Names runtime (trim (String.ofList subvalue)) member := by
  constructor
  · exact names_of_memberNamed
  · intro hnames
    cases hfound : memberNamed runtime TEnum subvalue with
    | none =>
        exact absurd hnames
          (List.find?_eq_none.mp hfound member (complete member))
    | some first =>
        rw [(names_of_memberNamed hfound).unique hcasing hnames]

/-- A single word is accepted only as the name of a member. -/
theorem tryParse_word (hword : Word text) :
    tryParse runtime TEnum text =
      (memberNamed runtime TEnum text.toList).map EnumValue.ofMember := by
  have htrim : trim text = text := trim_eq_self fun c hc => (hword c hc).1
  have hnumeral : parseNumeral text.toList = none := by
    cases hchars : text.toList with
    | nil => rfl
    | cons c rest =>
        exact parseNumeral_cons_eq_none
          (hword c (hchars ▸ List.mem_cons_self)).2
  have hcomma : ',' ∉ text.toList := by
    intro hc
    have hletter := (hword ',' hc).2
    revert hletter
    decide
  rw [tryParse, htrim, hnumeral]
  simp only [tryParseByName, List.splitOn_eq_singleton hcomma]
  cases hmember : memberNamed runtime TEnum text.toList with
  | none => simp [hmember]
  | some member => simp [hmember, EnumValue.ofMember]

theorem tryParse_of_names (hcasing : runtime.InvariantCasing)
    (hnames : Names runtime text member) :
    tryParse runtime TEnum text = some (.ofMember member) := by
  have hword := hnames.word hcasing
  have hmember : memberNamed runtime TEnum text.toList = some member := by
    rw [memberNamed_eq_some_iff hcasing, String.ofList_toList,
      trim_eq_self fun c hc => (hword c hc).1]
    exact hnames
  rw [tryParse_word hword, hmember]
  rfl

/-- A word of ASCII letters which is the name of no member is refused. -/
theorem tryParse_word_eq_none (hcasing : runtime.InvariantCasing)
    (hletters : text.toList.all Char.isAlpha = true)
    (hother : ∀ member : TEnum, text.toList.map Char.toUpper ≠
      (name member).toList.map Char.toUpper) :
    tryParse runtime TEnum text = none := by
  rw [List.all_eq_true] at hletters
  have hword : Word text := fun c hc =>
    ⟨not_isWhiteSpace_of_isAlpha (hletters c hc), Or.inl (hletters c hc)⟩
  have hascii : ∀ c ∈ text.toList, c.toNat < 128 := by
    intro c hc
    have hrange := (isAlpha_iff_toNat c).mp (hletters c hc)
    omega
  rw [tryParse_word hword, Option.map_eq_none_iff]
  cases hfound : memberNamed runtime TEnum text.toList with
  | none => rfl
  | some member =>
      have hnames := names_of_memberNamed hfound
      rw [String.ofList_toList, trim_eq_self fun c hc => (hword c hc).1,
        names_iff_of_ascii hcasing hascii] at hnames
      exact absurd hnames (hother member)

/-- What `Enum.TryParse` accepts: a numeral in the range of the underlying
type, or names of members separated by commas. -/
inductive Accepts (runtime : Runtime) (TEnum : Type) [ClrEnum TEnum]
    (text : String) : Prop where
  | numeral (numeral : ℤ)
      (hnumeral : parseNumeral (trim text).toList = some numeral)
      (hrange : isInt32 numeral = true)
  | names (hnumeral : parseNumeral (trim text).toList = none)
      (hnames : ∀ subvalue ∈ (trim text).toList.splitOn ',', ∃ member : TEnum,
        Names runtime (trim (String.ofList subvalue)) member)

theorem tryParseByName_isSome_iff (hcasing : runtime.InvariantCasing)
    {chars : List Char} :
    (tryParseByName runtime TEnum chars).isSome = true ↔
      ∀ subvalue ∈ chars.splitOn ',', ∃ member : TEnum,
        Names runtime (trim (String.ofList subvalue)) member := by
  simp only [← memberNamed_eq_some_iff hcasing, ← Option.isSome_iff_exists]
  simp [tryParseByName]

theorem tryParse_isSome_iff (hcasing : runtime.InvariantCasing) :
    (tryParse runtime TEnum text).isSome = true ↔
      Accepts runtime TEnum text := by
  unfold tryParse
  constructor
  · intro hparse
    cases hnumeral : parseNumeral (trim text).toList with
    | some numeral =>
        refine .numeral numeral hnumeral ?_
        by_contra hrange
        simp [hnumeral, hrange] at hparse
    | none =>
        refine .names hnumeral ((tryParseByName_isSome_iff hcasing).mp ?_)
        simpa [hnumeral] using hparse
  · intro haccepts
    cases haccepts with
    | numeral numeral hnumeral hrange => simp [hnumeral, hrange]
    | names hnumeral hnames =>
        rw [hnumeral]
        exact (tryParseByName_isSome_iff hcasing).mpr hnames

end ClrEnum

theorem Runtime.invariantCasing_reference :
    Runtime.reference.InvariantCasing := by
  refine ⟨fun _ _ => rfl, fun c hspace => ?_⟩
  have hnot : ¬(97 ≤ c.toNat ∧ c.toNat ≤ 122) := by
    intro hrange
    have halpha := (isAlpha_iff_toNat c).mpr (Or.inr hrange)
    rw [not_isWhiteSpace_of_isAlpha halpha] at hspace
    cases hspace
  apply Char.toNat_inj.mp
  have hupper := toNat_toUpper c
  rwa [if_neg hnot] at hupper

end SoftwareEntitlement
