import SoftwareEntitlement.PinningSoundness

/-!
# Pins which are added later

More pins let the search accept more certificate chains, with one exception.
A pin with the thumbprint of a certificate of the chain and another common name
makes the search throw, and a pinned certificate behind it is not reached.
-/

namespace SoftwareEntitlement

open SearchLoop

abbrev Accepts (url : String) (sslCerts : List CertInfo)
    (chain : List (Option X509)) : Prop :=
  verifyIntermediateCertificate url sslCerts chain = .ok ()

/-- The certificate has the thumbprint of the pin but, as the search reads it,
not its common name. -/
def Conflicting (visit : Option X509 × CertInfo) : Prop :=
  ∃ cert, visit.1 = some cert ∧
    cert.digest = some visit.2.thumbprint.bytes ∧
      cert.commonName ≠ .ok visit.2.commonName

def ConflictFree (sslCerts : List CertInfo) (chain : List (Option X509)) :
    Prop :=
  ∀ cert ∈ chain, ∀ pin ∈ sslCerts, ¬Conflicting (cert, pin)

/-- Wherever a pin conflicts with a certificate, the search has accepted the
chain before it comes to them. -/
def ConflictsUnreached (url : String) (sslCerts : List CertInfo)
    (chain : List (Option X509)) : Prop :=
  ∀ before visit after, visits sslCerts chain = before ++ visit :: after →
    Conflicting visit → ∃ earlier ∈ before, Accepting url earlier

/-! ## The list after the calls -/

def PinCall.appended : PinCall → List CertInfo
  | .init => microsoftIntermediateCerts
  | .addSslCertificate sslCertThumbprint sslCertCommonName =>
      match thumbprintToBinary sslCertThumbprint with
      | .ok thumbprint => [{ thumbprint, commonName := sslCertCommonName }]
      | .error _ => []

theorem PinCall.apply_eq_append (sslCerts : List CertInfo) (call : PinCall) :
    call.apply sslCerts = sslCerts ++ call.appended := by
  cases call with
  | init => rfl
  | addSslCertificate sslCertThumbprint sslCertCommonName =>
      cases hbinary : thumbprintToBinary sslCertThumbprint with
      | ok thumbprint =>
          simp [apply, perform, appended, hbinary, bind, Except.bind, pure,
            Except.pure]
      | error exception =>
          simp [apply, perform, appended, hbinary, bind, Except.bind]

theorem sslCertsAfter_eq_flatMap (calls : List PinCall) :
    sslCertsAfter calls = calls.flatMap PinCall.appended := by
  unfold sslCertsAfter
  induction calls using List.reverseRecOn with
  | nil => rfl
  | append_singleton calls call ih =>
      rw [List.foldl_append, List.foldl_cons, List.foldl_nil, ih,
        PinCall.apply_eq_append]
      simp

theorem sslCertsAfter_subset {calls more : List PinCall}
    (hcalls : calls ⊆ more) : sslCertsAfter calls ⊆ sslCertsAfter more := by
  rw [sslCertsAfter_eq_flatMap, sslCertsAfter_eq_flatMap]
  intro pin hpin
  obtain ⟨call, hcall, happended⟩ := List.mem_flatMap.mp hpin
  exact List.mem_flatMap.mpr ⟨call, hcalls hcall, happended⟩

/-! ## Acceptance with more pins -/

section Growth

variable {url : String} {chain : List (Option X509)}
  {sslCerts more : List CertInfo}

theorem Conflicting.throwing {visit : Option X509 × CertInfo}
    (hconflicting : Conflicting visit) : Throwing visit := by
  obtain ⟨cert, hcert, hdigest, hname⟩ := hconflicting
  exact ⟨cert, hcert, .inr ⟨hdigest, hname⟩⟩

theorem not_throwing_of_accepting {visit : Option X509 × CertInfo}
    (haccepting : Accepting url visit) : ¬Throwing visit := by
  rcases judgePin_cases url visit with
    ⟨-, hnot, -⟩ | ⟨-, hnot, -⟩ | ⟨-, hnot, -⟩
  · exact absurd haccepting hnot
  · exact hnot
  · exact absurd haccepting hnot

/-- A pair at which the search throws with some pin, where it does not throw
with another pin, is a conflict. -/
theorem conflicting_of_throwing {cert : Option X509} {pin other : CertInfo}
    (hthrowing : Throwing (cert, pin)) (hother : ¬Throwing (cert, other)) :
    Conflicting (cert, pin) := by
  obtain ⟨cert, rfl, hunknown | hconflict⟩ := hthrowing
  · exact absurd ⟨cert, rfl, .inl hunknown⟩ hother
  · exact ⟨cert, rfl, hconflict⟩

/-- The search with more pins comes to a conflict or accepts the chain no later
than at the certificate which is accepted with fewer. -/
theorem decided_of_accepts (hsubset : sslCerts ⊆ more)
    (haccepts : Accepts url sslCerts chain) :
    Accepts url more chain ∨
      ∃ before visit after, visits more chain = before ++ visit :: after ∧
        Conflicting visit ∧ ∀ earlier ∈ before, ¬Accepting url earlier := by
  obtain ⟨before, ⟨cert, pin⟩, after, hvisits, haccepting, hbefore⟩ :=
    verify_iff.mp haccepts
  obtain ⟨preceding, following, earlier, later, rfl, rfl, rfl⟩ :=
    visits_eq_append hvisits
  have hpin : pin ∈ more := hsubset (by simp)
  have hvisited : (cert, pin) ∈ visits more (preceding ++ cert :: following) :=
    mem_visits.mpr ⟨by simp, hpin⟩
  have hclear : ∀ first ∈ preceding, ¬Throwing (first, pin) := by
    intro first hfirst
    refine hbefore _ (List.mem_append_left _ (mem_visits.mpr ⟨hfirst, ?_⟩))
    simp
  cases hscan : scan (fun visit => judgePin url visit.1 visit.2)
      (visits more (preceding ++ cert :: following)) with
  | accept => exact .inl (verifyIntermediateCertificate_eq_ok_iff.mpr hscan)
  | proceed =>
      have hproceed := proceed_of_scan_eq_proceed hscan _ hvisited
      rw [judgePin_eq_accept_iff.mpr haccepting] at hproceed
      cases hproceed
  | abort exception =>
      obtain ⟨passed, ⟨reached, conflict⟩, rest, hsplit, habort, hpassed⟩ :=
        split_of_scan_eq_abort hscan
      have hnot : ∀ visit ∈ passed, ¬Accepting url visit := by
        intro visit hvisit hvisitAccepting
        have hproceed := hpassed visit hvisit
        rw [judgePin_eq_accept_iff.mpr hvisitAccepting] at hproceed
        cases hproceed
      refine .inr ⟨passed, _, rest, hsplit, ?_, hnot⟩
      suffices hclear' : ¬Throwing (reached, pin) from
        conflicting_of_throwing (throwing_of_judgePin habort) hclear'
      obtain ⟨front, back, before', after', hchain, hpins, rfl⟩ :=
        visits_eq_append hsplit
      -- the search has not passed the accepted certificate
      rcases mem_or_eq_or_mem_of_append_cons_eq hchain with hcert | rfl | hreached
      · exact absurd haccepting (hnot (cert, pin)
          (List.mem_append_left _ (mem_visits.mpr ⟨hcert, hpin⟩)))
      · exact not_throwing_of_accepting haccepting
      · exact hclear reached hreached

theorem accepts_iff_of_subset (hsubset : sslCerts ⊆ more)
    (haccepts : Accepts url sslCerts chain) :
    Accepts url more chain ↔ ConflictsUnreached url more chain := by
  constructor
  · intro hmore before visit after hvisits hconflicting
    obtain ⟨passed, accepted, rest, hsplit, haccepting, hpassed⟩ :=
      verify_iff.mp hmore
    rw [hvisits] at hsplit
    rcases mem_or_eq_or_mem_of_append_cons_eq hsplit with
      hvisit | rfl | haccepted
    · exact absurd hconflicting.throwing (hpassed visit hvisit)
    · exact absurd hconflicting.throwing (not_throwing_of_accepting haccepting)
    · exact ⟨accepted, haccepted, haccepting⟩
  · intro hunreached
    rcases decided_of_accepts hsubset haccepts with
      hmore | ⟨before, visit, after, hvisits, hconflicting, hnot⟩
    · exact hmore
    · obtain ⟨earlier, hearlier, haccepting⟩ :=
        hunreached before visit after hvisits hconflicting
      exact absurd haccepting (hnot earlier hearlier)

theorem ConflictFree.unreached (hfree : ConflictFree sslCerts chain) :
    ConflictsUnreached url sslCerts chain := by
  intro before visit after hvisits hconflicting
  have hvisited : visit ∈ visits sslCerts chain := by simp [hvisits]
  obtain ⟨hcert, hpin⟩ := mem_visits.mp hvisited
  exact absurd hconflicting (hfree _ hcert _ hpin)

/-- A chain which is accepted with some pins is accepted with more of them if
and only if no conflict comes first; without conflicts, the order in which the
pins are registered does not matter. -/
theorem accepts_of_subset (hsubset : sslCerts ⊆ more)
    (haccepts : Accepts url sslCerts chain) :
    (Accepts url more chain ↔ ConflictsUnreached url more chain) ∧
      (ConflictFree more chain → ∀ reordered, more ⊆ reordered →
        reordered ⊆ more → Accepts url reordered chain) ∧
      ∀ calls later, more = sslCertsAfter calls → calls ⊆ later →
        ConflictFree (sslCertsAfter later) chain →
          Accepts url (sslCertsAfter later) chain := by
  have haccepts_of {others : List CertInfo} (hmore : more ⊆ others)
      (hfree : ConflictFree others chain) : Accepts url others chain :=
    (accepts_iff_of_subset (List.Subset.trans hsubset hmore) haccepts).mpr
      hfree.unreached
  refine ⟨accepts_iff_of_subset hsubset haccepts, ?_, ?_⟩
  · intro hfree reordered hmore hreordered
    exact haccepts_of hmore fun cert hcert pin hpin =>
      hfree cert hcert pin (hreordered hpin)
  · intro calls later hcalls hlater hfree
    exact haccepts_of (hcalls ▸ sslCertsAfter_subset hlater) hfree

end Growth

/-! ## A pin in the way -/

def pinUnderOtherName : PinCall :=
  .addSslCertificate "417e225037fbfaa4f95761d5ae729e1aea7e3a42" "localhost"

theorem accepts_of_subset_initFirst :
    (Accepts "https://localhost/" (sslCertsAfter [.init, pinUnderOtherName])
        [some microsoftItTlsCa1.certificate] ↔
      ConflictsUnreached "https://localhost/"
        (sslCertsAfter [.init, pinUnderOtherName])
        [some microsoftItTlsCa1.certificate]) :=
  (accepts_of_subset (sslCertsAfter_subset (by simp)) (by decide :
    Accepts "https://localhost/" (sslCertsAfter [.init])
      [some microsoftItTlsCa1.certificate])).1

/-- The same two calls in the other order: the pinned certificate is accepted
after one order and rejected after the other. -/
theorem not_accepts_initLast :
    Accepts "https://localhost/" (sslCertsAfter [.init, pinUnderOtherName])
        [some microsoftItTlsCa1.certificate] ∧
      sslCertsAfter [.init, pinUnderOtherName] ⊆
        sslCertsAfter [pinUnderOtherName, .init] ∧
      ¬Accepts "https://localhost/" (sslCertsAfter [pinUnderOtherName, .init])
        [some microsoftItTlsCa1.certificate] :=
  ⟨by decide +kernel, sslCertsAfter_subset (by simp), by decide +kernel⟩

end SoftwareEntitlement
