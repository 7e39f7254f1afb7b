import SoftwareEntitlement.ReferenceRuntime
import Mathlib.Logic.Relation

/-!
# Certificate thumbprints

`CertificateThumbprint` keeps the letters and digits of a text in upper case.
It compares without regard to case, hashes the text which it keeps, and
matches a text by cleaning that text first: three ways which agree, because
upper-casing an upper-cased character changes nothing.
-/

namespace SoftwareEntitlement

/-- Two more parts of the platform: the table of letters and digits, and the
hash function of strings. -/
structure TextRuntime extends Runtime where
  isLetterOrDigit : Char → Bool
  getHashCode : String → BitVec 32

structure CertificateThumbprint where
  thumbprint : String
  deriving DecidableEq

def isNullOrWhiteSpace : Option String → Bool
  | none => true
  | some text => text.toList.all isWhiteSpace

namespace CertificateThumbprint

variable (runtime : TextRuntime)

def sanitizeThumbprint (thumbprint : String) : String :=
  String.ofList ((thumbprint.toList.filter runtime.isLetterOrDigit).map
    runtime.toUpperInvariant)

def new (thumbprint : Option String) : Throws CertificateThumbprint :=
  if isNullOrWhiteSpace thumbprint then
    .error (.argument "No thumbprint specified" "thumbprint")
  else
    .ok ⟨sanitizeThumbprint runtime (thumbprint.getD "")⟩

def toString (thumbprint : CertificateThumbprint) : String :=
  thumbprint.thumbprint

def getHashCode (thumbprint : CertificateThumbprint) : BitVec 32 :=
  runtime.getHashCode thumbprint.thumbprint

def equals (thumbprint other : CertificateThumbprint) : Bool :=
  runtime.equalsOrdinalIgnoreCase thumbprint.thumbprint other.thumbprint

/-- `Matches`. -/
def matchesThumbprint (self : CertificateThumbprint)
    (thumbprint : Option String) : Bool :=
  let t := sanitizeThumbprint runtime (thumbprint.getD "")
  runtime.equalsOrdinalIgnoreCase self.thumbprint t

end CertificateThumbprint

section Identity

variable {runtime : TextRuntime}

/-- The letters and digits of a text, in order. -/
def lettersAndDigits (runtime : TextRuntime) (text : String) : String :=
  String.ofList (text.toList.filter runtime.isLetterOrDigit)

/-- One edit of a text: a character which is neither a letter nor a digit is
inserted or deleted, or a character changes its case. -/
inductive Reformatted (runtime : TextRuntime) : String → String → Prop where
  | inserted (before after : List Char) {c : Char}
      (hignored : runtime.isLetterOrDigit c = false) :
      Reformatted runtime (String.ofList (before ++ after))
        (String.ofList (before ++ c :: after))
  | deleted (before after : List Char) {c : Char}
      (hignored : runtime.isLetterOrDigit c = false) :
      Reformatted runtime (String.ofList (before ++ c :: after))
        (String.ofList (before ++ after))
  | recased (before after : List Char) {c d : Char}
      (hclass : runtime.isLetterOrDigit c = runtime.isLetterOrDigit d)
      (hupper : runtime.toUpperInvariant c = runtime.toUpperInvariant d) :
      Reformatted runtime (String.ofList (before ++ c :: after))
        (String.ofList (before ++ d :: after))

theorem Runtime.equalsOrdinalIgnoreCase_iff {runtime : Runtime}
    {a b : String} :
    runtime.equalsOrdinalIgnoreCase a b = true ↔
      a.toList.map runtime.toUpperInvariant =
        b.toList.map runtime.toUpperInvariant := by
  simp [Runtime.equalsOrdinalIgnoreCase]

theorem Reformatted.sanitizeThumbprint_eq {text other : String}
    (hreformatted : Reformatted runtime text other) :
    CertificateThumbprint.sanitizeThumbprint runtime text =
      CertificateThumbprint.sanitizeThumbprint runtime other := by
  cases hreformatted with
  | inserted before after hignored =>
      simp [CertificateThumbprint.sanitizeThumbprint, hignored]
  | deleted before after hignored =>
      simp [CertificateThumbprint.sanitizeThumbprint, hignored]
  | recased before after hclass hupper =>
      simp [CertificateThumbprint.sanitizeThumbprint, List.filter_cons, hclass]
      split
      next => simp [hupper]
      next => rfl

namespace CertificateThumbprint

theorem equals_equivalence :
    Equivalence fun first second : CertificateThumbprint =>
      first.equals runtime second = true := by
  refine ⟨fun _ => ?_, fun h => ?_, fun h h' => ?_⟩
  · exact Runtime.equalsOrdinalIgnoreCase_iff.mpr rfl
  · exact Runtime.equalsOrdinalIgnoreCase_iff.mpr
      (Runtime.equalsOrdinalIgnoreCase_iff.mp h).symm
  · exact Runtime.equalsOrdinalIgnoreCase_iff.mpr
      ((Runtime.equalsOrdinalIgnoreCase_iff.mp h).trans
        (Runtime.equalsOrdinalIgnoreCase_iff.mp h'))

theorem new_of_not_blank {text : String}
    (hblank : isNullOrWhiteSpace (some text) = false) :
    new runtime (some text) = .ok ⟨sanitizeThumbprint runtime text⟩ := by
  simp [new, hblank]

/-- Upper-casing what has been sanitized changes nothing, so that two
sanitized texts are equal as soon as they are equal without regard to case. -/
theorem equalsOrdinalIgnoreCase_sanitize
    (hidempotent : ∀ c, runtime.toUpperInvariant (runtime.toUpperInvariant c) =
      runtime.toUpperInvariant c) {text other : String} :
    runtime.equalsOrdinalIgnoreCase (sanitizeThumbprint runtime text)
        (sanitizeThumbprint runtime other) = true ↔
      sanitizeThumbprint runtime text = sanitizeThumbprint runtime other := by
  have hupper : ∀ text : String,
      (sanitizeThumbprint runtime text).toList.map runtime.toUpperInvariant =
        (sanitizeThumbprint runtime text).toList := by
    intro text
    simp [sanitizeThumbprint, Function.comp_def, hidempotent]
  rw [Runtime.equalsOrdinalIgnoreCase_iff, hupper, hupper,
    String.toList_inj]

theorem sanitizeThumbprint_eq_iff {text other : String} :
    sanitizeThumbprint runtime text = sanitizeThumbprint runtime other ↔
      runtime.equalsOrdinalIgnoreCase (lettersAndDigits runtime text)
        (lettersAndDigits runtime other) = true := by
  rw [Runtime.equalsOrdinalIgnoreCase_iff]
  simp [sanitizeThumbprint, lettersAndDigits, String.ofList_inj]

theorem sanitizeThumbprint_eq_of_reformatted {text other : String}
    (hreformatted :
      Relation.ReflTransGen (Reformatted runtime) text other) :
    sanitizeThumbprint runtime text = sanitizeThumbprint runtime other := by
  induction hreformatted with
  | refl => rfl
  | tail _ hedit ih => exact ih.trans hedit.sanitizeThumbprint_eq

end CertificateThumbprint

structure ThumbprintIdentity (runtime : TextRuntime) (text other : String)
    (first second : CertificateThumbprint) : Prop where
  equals_iff : first.equals runtime second = true ↔
    runtime.equalsOrdinalIgnoreCase (lettersAndDigits runtime text)
      (lettersAndDigits runtime other) = true
  hash : first.equals runtime second = true →
    first.getHashCode runtime = second.getHashCode runtime
  matches_eq : first.matchesThumbprint runtime (some other) =
    first.equals runtime second
  reformatted : Relation.ReflTransGen (Reformatted runtime) text other →
    first.equals runtime second = true

/-- The thumbprints of texts which are not blank are identified by their
letters and digits, without regard to case, in all three comparisons. -/
theorem certificateThumbprint_identity (runtime : TextRuntime)
    (hidempotent : ∀ c, runtime.toUpperInvariant (runtime.toUpperInvariant c) =
      runtime.toUpperInvariant c) :
    (Equivalence fun first second : CertificateThumbprint =>
      first.equals runtime second = true) ∧
    ∀ text other, isNullOrWhiteSpace (some text) = false →
      isNullOrWhiteSpace (some other) = false →
        ∃ first second,
          CertificateThumbprint.new runtime (some text) = .ok first ∧
          CertificateThumbprint.new runtime (some other) = .ok second ∧
          ThumbprintIdentity runtime text other first second := by
  refine ⟨CertificateThumbprint.equals_equivalence,
    fun text other htext hother => ?_⟩
  have hequals : runtime.equalsOrdinalIgnoreCase
        (CertificateThumbprint.sanitizeThumbprint runtime text)
        (CertificateThumbprint.sanitizeThumbprint runtime other) = true ↔
      CertificateThumbprint.sanitizeThumbprint runtime text =
        CertificateThumbprint.sanitizeThumbprint runtime other :=
    CertificateThumbprint.equalsOrdinalIgnoreCase_sanitize hidempotent
  refine ⟨_, _, CertificateThumbprint.new_of_not_blank htext,
    CertificateThumbprint.new_of_not_blank hother, ?_, ?_, rfl, ?_⟩
  · exact hequals.trans CertificateThumbprint.sanitizeThumbprint_eq_iff
  · intro heq
    exact congrArg runtime.getHashCode (hequals.mp heq)
  · intro hreformatted
    exact hequals.mpr
      (CertificateThumbprint.sanitizeThumbprint_eq_of_reformatted hreformatted)

end Identity

def TextRuntime.reference : TextRuntime where
  toRuntime := .reference
  isLetterOrDigit := Char.isAlphanum
  getHashCode text := BitVec.ofNat 32 text.length

theorem toUpperInvariant_reference_idempotent (c : Char) :
    TextRuntime.reference.toUpperInvariant
        (TextRuntime.reference.toUpperInvariant c) =
      TextRuntime.reference.toUpperInvariant c := by
  change c.toUpper.toUpper = c.toUpper
  apply Char.toNat_inj.mp
  have hupper := toNat_toUpper c
  have htwice := toNat_toUpper c.toUpper
  split at hupper <;> split at htwice <;> omega

/-- A thumbprint with an invisible left-to-right mark in front. -/
theorem certificateThumbprint_identity_marked :
    ∃ first second,
      CertificateThumbprint.new .reference (some "\u200e97 ef") = .ok first ∧
      CertificateThumbprint.new .reference (some "97:EF") = .ok second ∧
      ThumbprintIdentity .reference "\u200e97 ef" "97:EF" first second ∧
      first.equals .reference second = true := by
  obtain ⟨first, second, hfirst, hsecond, hidentity⟩ :=
    (certificateThumbprint_identity .reference
      toUpperInvariant_reference_idempotent).2 "\u200e97 ef" "97:EF"
      (by decide) (by decide)
  exact ⟨first, second, hfirst, hsecond, hidentity,
    hidentity.equals_iff.mpr (by decide)⟩

end SoftwareEntitlement
