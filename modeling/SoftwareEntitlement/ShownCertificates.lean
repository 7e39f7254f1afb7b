import SoftwareEntitlement.ListCertificates

/-!
# Which certificates are shown

Each mode of `list-certificates` names a set of certificates, and a combination
of flags the union of what its flags name.  The tables of a mode overlap and
leave something out, and together they show just the set of the mode, but for
one: no table is printed for the expired certificates alone.
-/

namespace SoftwareEntitlement

namespace ListCertificatesCommand

/-- The certificates which the mode is about. -/
def Describes (mode : ShowCertificates) (now : DateTime)
    (cert : StoredCertificate) : Prop :=
  match mode with
  | .nonExpired => unexpired now cert = true
  | .forSigning => unexpired now cert = true ∧ signs cert = true
  | .forEncrypting => unexpired now cert = true ∧ encrypts cert = true
  | .forServerAuth =>
      unexpired now cert = true ∧ cert.supportsServerAuthentication = true
  | .expired => unexpired now cert = false
  | .all => True

def hasFlag (showCerts : EnumValue ShowCertificates)
    (flag : ShowCertificates) : Bool :=
  showCerts.value &&& flag.value == flag.value

/-- The certificate is named by one of the flags of the value. -/
def NamesCertificate (showCerts : EnumValue ShowCertificates) (now : DateTime)
    (cert : StoredCertificate) : Prop :=
  ∃ flag, hasFlag showCerts flag = true ∧ Describes flag now cert

/-- Whichever value the option is accepted as, the certificates in at least one
of the printed tables are those candidates which the value names. -/
def ShowsWhatIsNamed (platform : ListingPlatform) (now : DateTime)
    (show' : Option String) (extraColumns : List ExtraColumn)
    (candidates : List StoredCertificate) : Prop :=
  ∀ showCerts, tryParseShow platform.runtime show' = .ok showCerts →
    Prints
      (showTables platform now showCerts (extraColumns.map .ofMember) candidates)
      fun cert => cert ∈ candidates ∧ NamesCertificate showCerts now cert

/-- The modes for which there are tables. -/
def tabulated : List ShowCertificates :=
  [.nonExpired, .forSigning, .forEncrypting, .forServerAuth, .all]

variable {now : DateTime} {cert : StoredCertificate}
  {showCerts : EnumValue ShowCertificates}

theorem namesCertificate_ofMember (mode : ShowCertificates) :
    NamesCertificate (.ofMember mode) now cert ↔ Describes mode now cert := by
  have hflag : ∀ flag, hasFlag (.ofMember mode) flag = true ↔
      flag = mode ∨ mode = .all := by
    intro flag
    cases mode <;> cases flag <;> decide
  simp only [NamesCertificate, hflag]
  constructor
  · rintro ⟨flag, rfl | rfl, hdescribes⟩
    · exact hdescribes
    · trivial
  · intro hdescribes
    exact ⟨mode, Or.inl rfl, hdescribes⟩

theorem isOneOf_ofMember {modes : List ShowCertificates}
    {mode : ShowCertificates} :
    isOneOf modes (.ofMember mode) = true ↔ mode ∈ modes := by
  have hinjective : ∀ other : ShowCertificates,
      (EnumValue.ofMember mode == EnumValue.ofMember other) = true ↔
        mode = other := by
    intro other
    cases mode <;> cases other <;> decide
  simp [isOneOf, hinjective]

/-- The tables of a mode include what the mode is about. -/
theorem included_iff_describes {mode : ShowCertificates}
    (hmode : mode ∈ tabulated) :
    (∃ choice ∈ tableChoices now,
      mode ∈ choice.modes ∧ choice.includes cert = true) ↔
      Describes mode now cert := by
  -- Signing and encryption split the unexpired certificates into four tables,
  -- verification those for server authentication into two.
  cases mode with
  | nonExpired =>
      simp only [tableChoices, Describes, List.exists_mem_cons_iff]
      grind
  | forSigning =>
      simp only [tableChoices, Describes, List.exists_mem_cons_iff]
      grind
  | forEncrypting =>
      simp only [tableChoices, Describes, List.exists_mem_cons_iff]
      grind
  | forServerAuth =>
      simp only [tableChoices, Describes, List.exists_mem_cons_iff]
      grind
  | all =>
      simp only [tableChoices, Describes, List.exists_mem_cons_iff]
      grind
  | expired => exact absurd hmode (by decide)

theorem isOneOf_tabulated {choice : TableChoice}
    (hchoice : choice ∈ tableChoices now)
    (hshown : isOneOf choice.modes showCerts = true) :
    isOneOf tabulated showCerts = true := by
  have hmodes : ∀ mode ∈ choice.modes, mode ∈ tabulated := by
    simp only [tableChoices, List.mem_cons, List.not_mem_nil, or_false]
      at hchoice
    rcases hchoice with rfl | rfl | rfl | rfl | rfl | rfl | rfl <;>
      simp [tabulated]
  obtain ⟨mode, hmode, heq⟩ := List.any_eq_true.mp hshown
  exact List.any_eq_true.mpr ⟨mode, hmodes mode hmode, heq⟩

theorem Prints.iff_of_prints {printing : Throws (List CertificateTable)}
    {P Q : StoredCertificate → Prop} (hprints : Prints printing P) :
    Prints printing Q ↔ ∀ cert, P cert ↔ Q cert := by
  obtain ⟨tables, hprint, hshown⟩ := hprints
  constructor
  · rintro ⟨tables', hprint', hshown'⟩ cert
    obtain rfl : tables = tables' := Except.ok.inj (hprint.symm.trans hprint')
    exact (hshown cert).symm.trans (hshown' cert)
  · intro hsame
    exact ⟨tables, hprint, fun cert => (hshown cert).trans (hsame cert)⟩

theorem declared_of_map {extraColumns : List ExtraColumn} :
    ∀ extraColumn ∈ extraColumns.map EnumValue.ofMember,
      Declared extraColumn := by
  intro extraColumn hmem
  obtain ⟨member, -, rfl⟩ := List.mem_map.mp hmem
  exact ⟨member, rfl⟩

theorem shows_iff {platform : ListingPlatform}
    {extraColumns : List ExtraColumn} {candidates : List StoredCertificate} :
    Prints
        (showTables platform now showCerts (extraColumns.map .ofMember)
          candidates)
        (fun cert => cert ∈ candidates ∧ NamesCertificate showCerts now cert) ↔
      isOneOf tabulated showCerts = true ∨
        ∀ cert ∈ candidates, ¬NamesCertificate showCerts now cert := by
  rw [(showTables_prints declared_of_map showCerts candidates).iff_of_prints]
  cases htabulated : isOneOf tabulated showCerts with
  | true =>
      refine iff_of_true (fun cert => ?_) (Or.inl rfl)
      obtain ⟨mode, hmode, heq⟩ := List.any_eq_true.mp htabulated
      obtain rfl := eq_of_beq heq
      rw [namesCertificate_ofMember, ← included_iff_describes hmode]
      simp only [isOneOf_ofMember, List.mem_filter]
      constructor
      · rintro ⟨choice, hchoice, hshown, hcert, hincludes⟩
        exact ⟨hcert, choice, hchoice, hshown, hincludes⟩
      · rintro ⟨hcert, choice, hchoice, hshown, hincludes⟩
        exact ⟨choice, hchoice, hshown, hcert, hincludes⟩
  | false =>
      have hnone : ∀ cert, ¬∃ choice ∈ tableChoices now,
          isOneOf choice.modes showCerts = true ∧
            cert ∈ candidates.filter choice.includes := by
        rintro cert ⟨choice, hchoice, hshown, -⟩
        rw [isOneOf_tabulated hchoice hshown] at htabulated
        cases htabulated
      simp only [hnone, false_iff, not_and, Bool.false_eq_true, false_or]

end ListCertificatesCommand

open ListCertificatesCommand in
/-- What is shown is what is named exactly when there are tables for the value,
or none of the candidates is named. -/
theorem showsWhatIsNamed_iff (platform : ListingPlatform) (now : DateTime)
    (show' : Option String) (extraColumns : List ExtraColumn)
    (candidates : List StoredCertificate) :
    ShowsWhatIsNamed platform now show' extraColumns candidates ↔
      ∀ showCerts, tryParseShow platform.runtime show' = .ok showCerts →
        (∃ mode ∈ [ShowCertificates.nonExpired, .forSigning, .forEncrypting,
            .forServerAuth, .all], showCerts = .ofMember mode) ∨
          ∀ cert ∈ candidates, ¬NamesCertificate showCerts now cert := by
  refine forall_congr' fun showCerts => imp_congr_right fun _ => ?_
  rw [shows_iff]
  refine or_congr_left ?_
  simp [isOneOf, tabulated]

/-- An expired certificate is not shown to those who ask for the expired. -/
theorem not_showsWhatIsNamed_expired :
    ¬ListCertificatesCommand.ShowsWhatIsNamed .reference
      referenceMoment.utcDateTime (some "expired") []
      [certificateUntil .minValue] := by
  intro hshows
  obtain ⟨tables, htables, hshown⟩ := hshows (.ofMember .expired) rfl
  have hempty : ListCertificatesCommand.showTables .reference
      referenceMoment.utcDateTime (.ofMember .expired) []
      [certificateUntil .minValue] = .ok [] := rfl
  obtain rfl : [] = tables := Except.ok.inj (hempty.symm.trans htables)
  have hnamed : ListCertificatesCommand.Printed [] (certificateUntil .minValue) :=
    (hshown _).mpr ⟨List.mem_singleton_self _,
      (ListCertificatesCommand.namesCertificate_ofMember .expired).mpr rfl⟩
  obtain ⟨table, hmem, -⟩ := hnamed
  cases hmem

end SoftwareEntitlement
