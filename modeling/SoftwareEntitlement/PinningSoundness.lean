import SoftwareEntitlement.NativeClient

/-!
# What an accepted certificate chain guarantees

The native client accepts a server if its search finds a pinned certificate.
A pin with a namespace is meant for the hosts of this namespace, but the
search asks whether the namespace occurs anywhere in the URL.  Of a common name
it reads what comes before the first null character.
-/

namespace SoftwareEntitlement

open SearchLoop

/-! ## Which pins a certificate matches -/

/-- The text between `https://` and the next `/`, `:` or end of the string. -/
def hostPart (url : String) : String :=
  String.ofList ((url.toList.drop 8).takeWhile fun c => c != '/' && c != ':')

abbrev X509.EqualsPin (cert : X509) (pin : CertInfo) : Prop :=
  cert.digest = some pin.thumbprint.bytes ∧
    cert.commonNameData = some pin.commonName

/-- The certificate equals the pin, as the search reads its common name. -/
abbrev X509.MatchesPin (cert : X509) (pin : CertInfo) : Prop :=
  cert.digest = some pin.thumbprint.bytes ∧
    cert.commonName = .ok pin.commonName

/-- The common name goes on behind what the search reads of it. -/
def X509.Truncated (cert : X509) : Prop :=
  ∃ data, cert.commonNameData = some data ∧ HasNull data

/-- The pin is meant for the host. -/
abbrev CertInfo.Covers (pin : CertInfo) (host : String) : Prop :=
  pin.allowedDnsNamespace = "" ∨
    pin.allowedDnsNamespace.toList <:+ host.toList

/-- The search takes the pin for one which is meant for the host. -/
abbrev CertInfo.Admits (pin : CertInfo) (url : String) : Prop :=
  pin.allowedDnsNamespace = "" ∨ contains url pin.allowedDnsNamespace = true

/-- Some certificate of the chain equals a pin which is meant for the host. -/
def Pinned (sslCerts : List CertInfo) (chain : List (Option X509))
    (host : String) : Prop :=
  ∃ cert pin, some cert ∈ chain ∧ pin ∈ sslCerts ∧ cert.EqualsPin pin ∧
    pin.Covers host

/-- The pairs of a certificate and a pin, in the order of the search. -/
def visits (sslCerts : List CertInfo) (chain : List (Option X509)) :
    List (Option X509 × CertInfo) :=
  chain.flatMap fun cert => sslCerts.map fun validCert => (cert, validCert)

/-- A pair at which the search throws: the digest of the certificate is not
known, or it is the pinned one but the common name is not. -/
def Throwing (visit : Option X509 × CertInfo) : Prop :=
  ∃ cert, visit.1 = some cert ∧ (cert.digest = none ∨
    (cert.digest = some visit.2.thumbprint.bytes ∧
      cert.commonName ≠ .ok visit.2.commonName))

section Search

variable {url : String} {sslCerts : List CertInfo} {chain : List (Option X509)}

theorem mem_visits {visit : Option X509 × CertInfo} :
    visit ∈ visits sslCerts chain ↔ visit.1 ∈ chain ∧ visit.2 ∈ sslCerts := by
  obtain ⟨cert, pin⟩ := visit
  simp [visits]

theorem X509.matchesThumbprint_of_unknown {cert : X509}
    (hdigest : cert.digest = none) (thumb : SHA256Thumbprint) :
    ∃ exception, cert.matchesThumbprint thumb = .error exception := by
  unfold X509.matchesThumbprint X509.thumbprint
  cases cert.commonName with
  | error exception => exact ⟨exception, by rw [hdigest]; rfl⟩
  | ok name => exact ⟨_, by rw [hdigest]; rfl⟩

theorem X509.matchesThumbprint_of_digest {cert : X509} {bytes : List UInt8}
    (hdigest : cert.digest = some bytes) (thumb : SHA256Thumbprint) :
    cert.matchesThumbprint thumb = .ok (decide (bytes = thumb.bytes)) := by
  unfold X509.matchesThumbprint X509.thumbprint
  by_cases hsame : bytes = thumb.bytes
  · simp [hdigest, hsame, bind, Except.bind, pure, Except.pure]
  · have hbeq : (thumb.bytes == bytes) = false := by simpa using Ne.symm hsame
    by_cases hlength : bytes.length = thumb.bytes.length
    · simp [hdigest, hsame, hbeq, hlength, bind, Except.bind, pure, Except.pure]
    · simp [hdigest, hsame, hlength, bind, Except.bind, pure, Except.pure]

/-- The certificate matches the pin, whose namespace is empty or occurs in the
URL. -/
def Accepting (url : String) (visit : Option X509 × CertInfo) : Prop :=
  ∃ cert, visit.1 = some cert ∧ cert.MatchesPin visit.2 ∧ visit.2.Admits url

theorem judgePin_cases (url : String) (visit : Option X509 × CertInfo) :
    (Throwing visit ∧ ¬Accepting url visit ∧
      ∃ exception, judgePin url visit.1 visit.2 = .abort exception) ∨
    (Accepting url visit ∧ ¬Throwing visit ∧
      judgePin url visit.1 visit.2 = .accept) ∨
    (¬Throwing visit ∧ ¬Accepting url visit ∧
      judgePin url visit.1 visit.2 = .proceed) := by
  obtain ⟨cert, pin⟩ := visit
  cases cert with
  | none => simp [judgePin, Throwing, Accepting]
  | some cert =>
      simp only [judgePin, Throwing, Accepting, X509.MatchesPin, CertInfo.Admits,
        Option.some.injEq, exists_eq_left']
      cases hdigest : cert.digest with
      | none =>
          obtain ⟨exception, hmatches⟩ :=
            cert.matchesThumbprint_of_unknown hdigest pin.thumbprint
          simp [hmatches]
      | some bytes =>
          rw [cert.matchesThumbprint_of_digest hdigest pin.thumbprint]
          by_cases hsame : bytes = pin.thumbprint.bytes
          · cases hname : cert.commonName with
            | error exception => simp [hsame]
            | ok certName =>
                by_cases hnamed : certName = pin.commonName
                · by_cases hempty : pin.allowedDnsNamespace = ""
                  · simp [hsame, hnamed, hempty]
                  · cases hcontains : contains url pin.allowedDnsNamespace <;>
                      simp [hsame, hnamed, hempty]
                · simp [hsame, hnamed]
          · simp [hsame]

theorem judgePin_eq_accept_iff {visit : Option X509 × CertInfo} :
    judgePin url visit.1 visit.2 = .accept ↔ Accepting url visit := by
  rcases judgePin_cases url visit with
    ⟨-, hnot, exception, hjudge⟩ | ⟨haccepting, -, hjudge⟩ | ⟨-, hnot, hjudge⟩
  · simp [hjudge, hnot]
  · simp [hjudge, haccepting]
  · simp [hjudge, hnot]

theorem throwing_of_judgePin {visit : Option X509 × CertInfo}
    {exception : NativeException}
    (habort : judgePin url visit.1 visit.2 = .abort exception) :
    Throwing visit := by
  rcases judgePin_cases url visit with
    ⟨hthrowing, -⟩ | ⟨-, -, hjudge⟩ | ⟨-, -, hjudge⟩
  · exact hthrowing
  · rw [hjudge] at habort
    cases habort
  · rw [hjudge] at habort
    cases habort

theorem not_throwing_of_proceed {visit : Option X509 × CertInfo}
    (hproceed : judgePin url visit.1 visit.2 = .proceed) : ¬Throwing visit := by
  rcases judgePin_cases url visit with
    ⟨-, -, exception, hjudge⟩ | ⟨-, hnot, -⟩ | ⟨hnot, -⟩
  · rw [hjudge] at hproceed
    cases hproceed
  · exact hnot
  · exact hnot

theorem verifyIntermediateCertificate_eq_ok_iff :
    verifyIntermediateCertificate url sslCerts chain = .ok () ↔
      scan (fun visit => judgePin url visit.1 visit.2) (visits sslCerts chain) =
        .accept := by
  unfold verifyIntermediateCertificate visits
  rw [scan_flatMap]
  simp only [scan_map]
  cases scan (fun cert => scan (judgePin url cert) sslCerts) chain <;> simp

/-- The chain is accepted if and only if the search comes to an accepting pair
before it comes to a throwing one. -/
theorem verify_iff :
    verifyIntermediateCertificate url sslCerts chain = .ok () ↔
      ∃ before visit after, visits sslCerts chain = before ++ visit :: after ∧
        Accepting url visit ∧ ∀ earlier ∈ before, ¬Throwing earlier := by
  rw [verifyIntermediateCertificate_eq_ok_iff]
  constructor
  · intro haccept
    obtain ⟨before, visit, after, hvisits, hvisit, hbefore⟩ :=
      scan_eq_accept_iff.mp haccept
    exact ⟨before, visit, after, hvisits, judgePin_eq_accept_iff.mp hvisit,
      fun earlier hearlier => not_throwing_of_proceed (hbefore earlier hearlier)⟩
  · rintro ⟨before, visit, after, hvisits, haccepting, hbefore⟩
    rw [hvisits]
    exact scan_eq_accept_of_no_abort (judgePin_eq_accept_iff.mpr haccepting)
      fun earlier hearlier exception habort =>
        hbefore earlier hearlier (throwing_of_judgePin habort)

theorem throwing_iff {cert : X509} {bytes : List UInt8} {name : String}
    (hdigest : cert.digest = some bytes) (hname : cert.commonName = .ok name)
    (pin : CertInfo) :
    Throwing (some cert, pin) ↔
      pin.thumbprint.bytes = bytes ∧ pin.commonName ≠ name := by
  simp [Throwing, hdigest, hname, eq_comm]

/-- The visits before a pair are those of the earlier certificates, and those of
its certificate to the earlier pins. -/
theorem visits_eq_append {before after : List (Option X509 × CertInfo)}
    {cert : Option X509} {pin : CertInfo}
    (hvisits : visits sslCerts chain = before ++ (cert, pin) :: after) :
    ∃ preceding following earlier later,
      chain = preceding ++ cert :: following ∧
        sslCerts = earlier ++ pin :: later ∧
          before = visits sslCerts preceding ++
            earlier.map fun other => (cert, other) := by
  induction chain generalizing before with
  | nil => simp [visits] at hvisits
  | cons first chain ih =>
      have hsplit : sslCerts.map (fun validCert => (first, validCert)) ++
          visits sslCerts chain = before ++ (cert, pin) :: after := hvisits
      have hlater {rest : List (Option X509 × CertInfo)}
          (hrest : visits sslCerts chain = rest ++ (cert, pin) :: after)
          (hbefore : before =
            sslCerts.map (fun validCert => (first, validCert)) ++ rest) :
          ∃ preceding following earlier later,
            first :: chain = preceding ++ cert :: following ∧
              sslCerts = earlier ++ pin :: later ∧
                before = visits sslCerts preceding ++
                  earlier.map fun other => (cert, other) := by
        obtain ⟨preceding, following, earlier, later, rfl, hpins, rfl⟩ :=
          ih hrest
        refine ⟨first :: preceding, following, earlier, later, rfl, hpins, ?_⟩
        rw [hbefore, ← List.append_assoc]
        rfl
      rcases List.append_eq_append_iff.mp hsplit with
        ⟨rest, hbefore, hrest⟩ | ⟨rest, hfirst, hrest⟩
      · exact hlater hrest hbefore
      · cases rest with
        | nil =>
            have hshort : visits sslCerts chain = [] ++ (cert, pin) :: after :=
              hrest.symm
            exact hlater hshort (by simpa using hfirst.symm)
        | cons visit rest =>
            obtain ⟨rfl, -⟩ := List.cons.inj hrest
            obtain ⟨earlier, others, hpins, rfl, hothers⟩ :=
              List.map_eq_append_iff.mp hfirst
            obtain ⟨pin', later, rfl, hpin, -⟩ :=
              List.map_eq_cons_iff.mp hothers
            obtain ⟨rfl, rfl⟩ := Prod.mk.inj hpin
            exact ⟨[], chain, earlier, later, rfl, hpins, rfl⟩

end Search

/-! ## Pins with a namespace -/

def NamespacesBuiltIn (sslCerts : List CertInfo) : Prop :=
  ∀ pin ∈ sslCerts, pin.allowedDnsNamespace ≠ "" →
    pin ∈ microsoftIntermediateCerts

theorem PinCall.perform_namespacesBuiltIn {sslCerts extended : List CertInfo}
    {call : PinCall} (hbefore : NamespacesBuiltIn sslCerts)
    (hperform : call.perform sslCerts = .ok extended) :
    NamespacesBuiltIn extended := by
  cases call with
  | init =>
      obtain rfl := Except.ok.inj hperform
      intro pin hpin hnamespace
      rcases List.mem_append.mp hpin with hpin | hpin
      · exact hbefore pin hpin hnamespace
      · exact hpin
  | addSslCertificate thumbprint commonName =>
      cases hbinary : thumbprintToBinary thumbprint with
      | error exception =>
          simp [PinCall.perform, hbinary, bind, Except.bind] at hperform
      | ok binary =>
          simp only [PinCall.perform, hbinary, bind, Except.bind, pure,
            Except.pure, Except.ok.injEq] at hperform
          subst hperform
          intro pin hpin hnamespace
          rcases List.mem_append.mp hpin with hpin | hpin
          · exact hbefore pin hpin hnamespace
          · obtain rfl := List.mem_singleton.mp hpin
            exact absurd rfl hnamespace

theorem PinCall.apply_namespacesBuiltIn {sslCerts : List CertInfo}
    (call : PinCall) (hbefore : NamespacesBuiltIn sslCerts) :
    NamespacesBuiltIn (PinCall.apply sslCerts call) := by
  unfold PinCall.apply
  cases hperform : call.perform sslCerts with
  | ok extended => exact PinCall.perform_namespacesBuiltIn hbefore hperform
  | error exception => exact hbefore

theorem sslCertsAfter_namespacesBuiltIn (calls : List PinCall) :
    NamespacesBuiltIn (sslCertsAfter calls) := by
  unfold sslCertsAfter
  induction calls using List.reverseRecOn with
  | nil => simp [NamespacesBuiltIn]
  | append_singleton calls call ih =>
      rw [List.foldl_append, List.foldl_cons, List.foldl_nil]
      exact PinCall.apply_namespacesBuiltIn call ih

theorem not_hasNull_of_builtIn {pin : CertInfo}
    (hpin : pin ∈ microsoftIntermediateCerts) : ¬HasNull pin.commonName := by
  revert pin
  decide

/-! ## Names which the search reads in part -/

section Names

variable {cert : X509} {pin : CertInfo}

theorem X509.commonName_eq_ok_iff {name : String} :
    cert.commonName = .ok name ↔
      ∃ data, cert.commonNameData = some data ∧ cString data = name := by
  unfold X509.commonName
  cases cert.commonNameData with
  | none => simp
  | some data => simp

theorem X509.MatchesPin.not_hasNull (hmatches : cert.MatchesPin pin) :
    ¬HasNull pin.commonName := by
  obtain ⟨data, -, hname⟩ := X509.commonName_eq_ok_iff.mp hmatches.2
  exact hname ▸ not_hasNull_cString data

theorem X509.MatchesPin.equalsPin (hmatches : cert.MatchesPin pin)
    (hwhole : ¬cert.Truncated) : cert.EqualsPin pin := by
  obtain ⟨data, hdata, hname⟩ := X509.commonName_eq_ok_iff.mp hmatches.2
  have hread : cString data = data :=
    cString_eq_self_iff.mpr fun hnull => hwhole ⟨data, hdata, hnull⟩
  exact ⟨hmatches.1, by rw [hdata, ← hname, hread]⟩

/-- A certificate with the thumbprint of a pin. -/
def CertInfo.certificateUnder (pin : CertInfo) (data : String) : X509 :=
  ⟨some pin.thumbprint.bytes, some data⟩

def CertInfo.certificate (pin : CertInfo) : X509 :=
  pin.certificateUnder pin.commonName

theorem CertInfo.certificate_matchesPin (hname : ¬HasNull pin.commonName) :
    pin.certificate.MatchesPin pin :=
  ⟨rfl, congrArg Except.ok (cString_eq_self_iff.mpr hname)⟩

theorem CertInfo.not_truncated_certificate (hname : ¬HasNull pin.commonName) :
    ¬pin.certificate.Truncated := by
  rintro ⟨data, hdata, hnull⟩
  obtain rfl : pin.commonName = data := Option.some.inj hdata
  exact hname hnull

/-- The name of the pin, with so many null characters behind it that no pin of
the list is called so. -/
def CertInfo.forgedName (pin : CertInfo) (sslCerts : List CertInfo) : String :=
  let names := (sslCerts.map fun other => other.commonName.toList).flatten
  pin.commonName ++
    String.ofList (List.replicate (names.length + 1) (Char.ofNat 0))

theorem CertInfo.cString_forgedName (sslCerts : List CertInfo)
    (hname : ¬HasNull pin.commonName) :
    cString (pin.forgedName sslCerts) = pin.commonName :=
  cString_append_null hname _

theorem CertInfo.hasNull_forgedName {sslCerts : List CertInfo} :
    HasNull (pin.forgedName sslCerts) := by
  simp [CertInfo.forgedName, HasNull]

theorem CertInfo.ne_forgedName {sslCerts : List CertInfo} {other : CertInfo}
    (hother : other ∈ sslCerts) :
    other.commonName ≠ pin.forgedName sslCerts := by
  intro heq
  have hlength := congrArg String.length heq
  have hbound := (List.sublist_flatten_of_mem (List.mem_map_of_mem
    (f := fun other : CertInfo => other.commonName.toList) hother)).length_le
  simp only [CertInfo.forgedName, String.length_append, String.length_ofList,
    List.length_replicate, String.length_toList] at hlength hbound
  omega

end Names

/-! ## Soundness -/

/-- If the URL passes the checks and the chain is accepted, some certificate of
the chain equals a pin which is meant for the host. -/
def SoundlyPinned (url : String) (sslCerts : List CertInfo)
    (chain : List (Option X509)) : Prop :=
  ∀ normalised, checkUrl url = .ok normalised →
    verifyIntermediateCertificate normalised sslCerts chain = .ok () →
      Pinned sslCerts chain (hostPart url)

/-- The namespace of the pin occurs in the URL, but not at the end of the
host. -/
def CertInfo.Misplaced (pin : CertInfo) (normalised host : String) : Prop :=
  contains normalised pin.allowedDnsNamespace = true ∧ ¬pin.Covers host

/-- The certificate matches the pin, but its name goes on behind a null
character, or the namespace of the pin is misplaced. -/
def Deceptive (normalised host : String) (visit : Option X509 × CertInfo) :
    Prop :=
  ∃ cert, visit.1 = some cert ∧ cert.MatchesPin visit.2 ∧
    (cert.Truncated ∧ visit.2.Admits normalised ∨
      visit.2.Misplaced normalised host)

/-- Where a pair deceives the search, it has thrown before, or the chain has a
proper match as well. -/
def DeceptionsUnreached (url : String) (sslCerts : List CertInfo)
    (chain : List (Option X509)) : Prop :=
  ∀ normalised, checkUrl url = .ok normalised →
    ∀ before visit after, visits sslCerts chain = before ++ visit :: after →
      Deceptive normalised (hostPart url) visit →
        (∃ earlier ∈ before, Throwing earlier) ∨
          Pinned sslCerts chain (hostPart url)

/-- Every pin whose namespace is misplaced comes after a pin with the same
thumbprint and another name, or shares thumbprint and name with a pin which is
meant for the host. -/
def MisplacedShielded (url : String) (sslCerts : List CertInfo) : Prop :=
  ∀ normalised, checkUrl url = .ok normalised →
    ∀ before pin after, sslCerts = before ++ pin :: after →
      pin.Misplaced normalised (hostPart url) →
        (∃ earlier ∈ before, earlier.thumbprint = pin.thumbprint ∧
          earlier.commonName ≠ pin.commonName) ∨
        ∃ other ∈ sslCerts, other.thumbprint = pin.thumbprint ∧
          other.commonName = pin.commonName ∧ other.Covers (hostPart url)

/-- Every pin with which the search can accept a certificate comes after a pin
with the same thumbprint and another name. -/
def AdmittingShielded (url : String) (sslCerts : List CertInfo) : Prop :=
  ∀ normalised, checkUrl url = .ok normalised →
    ∀ before pin after, sslCerts = before ++ pin :: after →
      ¬HasNull pin.commonName → pin.Admits normalised →
        ∃ earlier ∈ before, earlier.thumbprint = pin.thumbprint ∧
          earlier.commonName ≠ pin.commonName

/-- The search reads the common names of the chain to their ends. -/
def NamesWhole (chain : List (Option X509)) : Prop :=
  ∀ cert, some cert ∈ chain → ¬cert.Truncated

section Soundness

variable {url normalised : String} {sslCerts : List CertInfo}
  {chain : List (Option X509)}

theorem Deceptive.accepting {host : String} {visit : Option X509 × CertInfo}
    (hdeceptive : Deceptive normalised host visit) :
    Accepting normalised visit := by
  obtain ⟨cert, hcert, hmatches, ⟨-, hadmits⟩ | hmisplaced⟩ := hdeceptive
  · exact ⟨cert, hcert, hmatches, hadmits⟩
  · exact ⟨cert, hcert, hmatches, .inr hmisplaced.1⟩

theorem soundlyPinned_chain_iff :
    SoundlyPinned url sslCerts chain ↔
      DeceptionsUnreached url sslCerts chain := by
  constructor
  · intro hsound normalised hchecked before visit after hvisits hdeceptive
    by_cases hthrows : ∃ earlier ∈ before, Throwing earlier
    · exact .inl hthrows
    · push Not at hthrows
      exact .inr (hsound normalised hchecked (verify_iff.mpr
        ⟨before, visit, after, hvisits, hdeceptive.accepting, hthrows⟩))
  · intro hcondition normalised hchecked hverify
    obtain ⟨before, ⟨_, pin⟩, after, hvisits, ⟨cert, rfl, hmatches, hadmits⟩,
      hbefore⟩ := verify_iff.mp hverify
    by_cases hproper : ¬cert.Truncated ∧ pin.Covers (hostPart url)
    · have hvisited : (some cert, pin) ∈ visits sslCerts chain := by
        simp [hvisits]
      obtain ⟨hcert, hpin⟩ := mem_visits.mp hvisited
      exact ⟨cert, pin, hcert, hpin, hmatches.equalsPin hproper.1, hproper.2⟩
    · have hdeceptive :
          Deceptive normalised (hostPart url) (some cert, pin) := by
        refine ⟨cert, rfl, hmatches, ?_⟩
        by_cases hcovers : pin.Covers (hostPart url)
        · exact .inl ⟨not_not.mp fun hwhole => hproper ⟨hwhole, hcovers⟩,
            hadmits⟩
        · exact .inr ⟨hadmits.resolve_left fun hempty => hcovers (.inl hempty),
            hcovers⟩
      refine (hcondition normalised hchecked before (some cert, pin) after
        hvisits hdeceptive).resolve_left ?_
      rintro ⟨visit, hvisit, hthrows⟩
      exact hbefore visit hvisit hthrows

/-- What follows from an earlier pin with the thumbprint of this one and another
name: a certificate which matches this one is not reached. -/
theorem throwing_of_shielded {cert : X509} {pin earlier : CertInfo}
    {preceding : List (Option X509)} {earlierPins : List CertInfo}
    (hmatches : cert.MatchesPin pin) (hearlier : earlier ∈ earlierPins)
    (hthumbprint : earlier.thumbprint = pin.thumbprint)
    (hdiffers : earlier.commonName ≠ pin.commonName) :
    ∃ visit ∈ visits sslCerts preceding ++
        earlierPins.map fun other => (some cert, other), Throwing visit := by
  refine ⟨(some cert, earlier),
    List.mem_append_right _ (List.mem_map_of_mem hearlier), ?_⟩
  exact (throwing_iff hmatches.1 hmatches.2 earlier).mpr
    ⟨congrArg SHA256Thumbprint.bytes hthumbprint, hdiffers⟩

/-- The only certificate of the chain matches the pin: if the search throws
before it comes to the pin, there is an earlier pin with the same thumbprint and
another name. -/
theorem shielded_of_throwing {cert : X509} {pin : CertInfo}
    {before : List CertInfo} (hmatches : cert.MatchesPin pin)
    (hthrows : ∃ visit ∈ before.map fun earlier => (some cert, earlier),
      Throwing visit) :
    ∃ earlier ∈ before, earlier.thumbprint = pin.thumbprint ∧
      earlier.commonName ≠ pin.commonName := by
  obtain ⟨visit, hvisit, hthrows⟩ := hthrows
  obtain ⟨earlier, hearlier, rfl⟩ := List.mem_map.mp hvisit
  obtain ⟨hthumbprint, hdiffers⟩ :=
    (throwing_iff hmatches.1 hmatches.2 earlier).mp hthrows
  exact ⟨earlier, hearlier, SHA256Thumbprint.ext hthumbprint, hdiffers⟩

theorem visits_singleton (cert : Option X509) {before after : List CertInfo}
    {pin : CertInfo} (hpins : sslCerts = before ++ pin :: after) :
    visits sslCerts [cert] = before.map (fun earlier => (cert, earlier)) ++
      (cert, pin) :: after.map (fun later => (cert, later)) := by
  simp [visits, hpins]

/-- As long as no name is cut off, what matters is where the namespaces
occur. -/
theorem forall_namesWhole_soundlyPinned_iff
    (hbuiltIn : NamespacesBuiltIn sslCerts) :
    (∀ chain, NamesWhole chain → SoundlyPinned url sslCerts chain) ↔
      MisplacedShielded url sslCerts := by
  constructor
  · intro hsound normalised hchecked before pin after hpins hmisplaced
    have hmem : pin ∈ sslCerts := by simp [hpins]
    have hname : ¬HasNull pin.commonName :=
      not_hasNull_of_builtIn (hbuiltIn pin hmem fun h => hmisplaced.2 (.inl h))
    have hmatches := CertInfo.certificate_matchesPin hname
    -- the server which holds only the certificate of this pin
    have hwhole : NamesWhole [some pin.certificate] := by
      intro cert hcert
      obtain rfl : cert = pin.certificate := by simpa using hcert
      exact CertInfo.not_truncated_certificate hname
    rcases soundlyPinned_chain_iff.mp (hsound _ hwhole) normalised hchecked _ _ _
        (visits_singleton _ hpins) ⟨_, rfl, hmatches, .inr hmisplaced⟩ with
      hthrows | ⟨cert, other, hcert, hother, hequals, hcovers⟩
    · exact .inl (shielded_of_throwing hmatches hthrows)
    · obtain rfl : cert = pin.certificate := by simpa using hcert
      have hthumbprint := Option.some.inj hequals.1
      have hsame := Option.some.inj hequals.2
      exact .inr ⟨other, hother, SHA256Thumbprint.ext hthumbprint.symm,
        hsame.symm, hcovers⟩
  · intro hcondition chain hwhole
    refine soundlyPinned_chain_iff.mpr ?_
    rintro normalised hchecked before ⟨_, pin⟩ after hvisits
      ⟨cert, rfl, hmatches, hdeceives⟩
    have hvisited : (some cert, pin) ∈ visits sslCerts chain := by simp [hvisits]
    obtain ⟨hcert, -⟩ := mem_visits.mp hvisited
    have hmisplaced : pin.Misplaced normalised (hostPart url) :=
      hdeceives.resolve_left fun hcut => hwhole cert hcert hcut.1
    obtain ⟨preceding, following, earlierPins, laterPins, -, hpins, rfl⟩ :=
      visits_eq_append hvisits
    rcases hcondition normalised hchecked _ _ _ hpins hmisplaced with
      ⟨earlier, hearlier, hthumbprint, hdiffers⟩ |
      ⟨other, hother, hthumbprint, hsame, hcovers⟩
    · exact .inl (throwing_of_shielded hmatches hearlier hthumbprint hdiffers)
    · have hequals := hmatches.equalsPin (hwhole cert hcert)
      refine .inr ⟨cert, other, hcert, hother, ?_, hcovers⟩
      exact ⟨by rw [hequals.1, hthumbprint], by rw [hequals.2, hsame]⟩

/-- Against every chain only a search which accepts none is sound: any pin with
which it can accept a certificate can be forged with a longer name. -/
theorem forall_soundlyPinned_iff :
    (∀ chain, SoundlyPinned url sslCerts chain) ↔
      AdmittingShielded url sslCerts := by
  constructor
  · intro hsound normalised hchecked before pin after hpins hname hadmits
    have hmatches :
        (pin.certificateUnder (pin.forgedName sslCerts)).MatchesPin pin :=
      ⟨rfl, congrArg Except.ok (CertInfo.cString_forgedName sslCerts hname)⟩
    rcases soundlyPinned_chain_iff.mp (hsound _) normalised hchecked _ _ _
        (visits_singleton _ hpins)
        ⟨_, rfl, hmatches, .inl ⟨⟨_, rfl, CertInfo.hasNull_forgedName⟩,
          hadmits⟩⟩ with
      hthrows | ⟨cert, other, hcert, hother, hequals, -⟩
    · exact shielded_of_throwing hmatches hthrows
    · obtain rfl : cert = pin.certificateUnder (pin.forgedName sslCerts) := by
        simpa using hcert
      exact absurd (Option.some.inj hequals.2).symm
        (CertInfo.ne_forgedName hother)
  · intro hcondition chain
    refine soundlyPinned_chain_iff.mpr ?_
    intro normalised hchecked before visit after hvisits hdeceptive
    obtain ⟨cert, hcert, hmatches, hadmits⟩ := hdeceptive.accepting
    obtain ⟨preceding, following, earlierPins, laterPins, -, hpins, rfl⟩ :=
      visits_eq_append hvisits
    obtain ⟨earlier, hearlier, hthumbprint, hdiffers⟩ :=
      hcondition normalised hchecked _ _ _ hpins hmatches.not_hasNull hadmits
    exact .inl (hcert ▸
      throwing_of_shielded hmatches hearlier hthumbprint hdiffers)

end Soundness

/-- When pinning is sound: on one certificate chain, on all chains whose names
the search reads to their ends, and on all chains. -/
theorem soundlyPinned_iff (url : String) (calls : List PinCall) :
    (∀ chain, SoundlyPinned url (sslCertsAfter calls) chain ↔
      DeceptionsUnreached url (sslCertsAfter calls) chain) ∧
    ((∀ chain, NamesWhole chain →
        SoundlyPinned url (sslCertsAfter calls) chain) ↔
      MisplacedShielded url (sslCertsAfter calls)) ∧
    ((∀ chain, SoundlyPinned url (sslCertsAfter calls) chain) ↔
      AdmittingShielded url (sslCertsAfter calls)) :=
  ⟨fun _ => soundlyPinned_chain_iff,
    forall_namesWhole_soundlyPinned_iff (sslCertsAfter_namespacesBuiltIn calls),
    forall_soundlyPinned_iff⟩

/-- A host outside the namespace, with the namespace in its path. -/
theorem not_soundlyPinned_namespaceInPath :
    ¬SoundlyPinned "https://evil.example.com/.batch.usgovcloudapi.net"
      (sslCertsAfter [.init]) [some batchUSGovCloudApiCa.certificate] := by
  intro hsound
  obtain ⟨cert, pin, hcert, hpin, hequals, hcovers⟩ :=
    hsound "https://evil.example.com/.batch.usgovcloudapi.net/" (by decide)
      (by decide)
  obtain rfl : cert = batchUSGovCloudApiCa.certificate := by simpa using hcert
  have hnone : ∀ pin ∈ sslCertsAfter [.init],
      batchUSGovCloudApiCa.certificate.EqualsPin pin →
        ¬pin.Covers
          (hostPart "https://evil.example.com/.batch.usgovcloudapi.net") := by
    decide
  exact hnone pin hpin hequals hcovers

end SoftwareEntitlement
