import SoftwareEntitlement.TokenParsing
import SoftwareEntitlement.JwtReference

/-!
# When the parser throws

`ExtractJwt` catches whatever the library throws, but the readers of the
validated token run outside of its `try` block.  One of them throws where the
start of a token without an `nbf` claim is converted to an instant.
-/

namespace SoftwareEntitlement

/-! ## Errors which say something -/

/-- If the result is an error, its set of errors is not empty. -/
def Result.Explained {α : Type} (result : Result α ErrorSet) : Prop :=
  ∀ errors, result = .error errors → errors.errors.items ≠ []

namespace Result

variable {α β : Type}

theorem Explained.ok (value : α) :
    Explained (.ok value : Result α ErrorSet) := by
  intro errors herrors
  cases herrors

theorem Explained.create (error : String) :
    Explained (.error (.create error) : Result α ErrorSet) := by
  intro errors herrors
  obtain rfl := Except.error.inj herrors
  simp [ErrorSet.create, ImmutableHashSet.createRange]

theorem combine_ne_nil {first second : ErrorSet}
    (hfirst : first.errors.items ≠ []) :
    (ICombinable.combine first second).errors.items ≠ [] := by
  obtain ⟨error, herror⟩ := List.exists_mem_of_ne_nil _ hfirst
  have hmem : error ∈ (first.combine second).errors.items :=
    List.mem_dedup.mpr (List.mem_append_left _ herror)
  exact List.ne_nil_of_mem hmem

theorem Explained.with' {γ : Type} {result : Result α ErrorSet}
    {otherResult : Result β ErrorSet} (hresult : result.Explained)
    (hother : otherResult.Explained) (okCombiner : α → β → γ) :
    (result.with' otherResult okCombiner).Explained := by
  cases result with
  | ok firstOk =>
      cases otherResult with
      | ok secondOk => exact .ok _
      | error secondError =>
          intro errors herrors
          obtain rfl := Except.error.inj herrors
          exact hother _ rfl
  | error firstError =>
      have hfirst := hresult firstError rfl
      cases otherResult with
      | ok secondOk =>
          intro errors herrors
          obtain rfl := Except.error.inj herrors
          exact hfirst
      | error secondError =>
          intro errors herrors
          obtain rfl := Except.error.inj herrors
          exact combine_ne_nil hfirst

theorem Explained.join {outer : Result α ErrorSet} {inner : Result β ErrorSet}
    (houter : outer.Explained) (hinner : inner.Explained) :
    (outer.join inner).Explained :=
  houter.with' hinner Prod.mk

theorem Explained.map {result : Result α ErrorSet} (hresult : result.Explained)
    (f : α → β) : Explained (result.map f) := by
  cases result with
  | ok value => exact .ok (f value)
  | error errors =>
      rintro _ ⟨⟩
      exact hresult errors rfl

theorem Explained.reduce {results : List (Result α ErrorSet)}
    (hresults : ∀ result ∈ results, result.Explained) :
    (Result.reduce results).Explained := by
  unfold Result.reduce
  induction results using List.reverseRecOn with
  | nil => exact .ok _
  | append_singleton results result ih =>
      rw [List.foldl_append, List.foldl_cons, List.foldl_nil]
      have hbefore := ih fun either heither =>
        hresults either (List.mem_append_left _ heither)
      exact hbefore.with' (hresults result (by simp)) _

end Result

/-! ## The readers -/

structure ITokenPropertyProvider.Explains
    (provider : ITokenPropertyProvider) : Prop where
  issuedAt : ∀ result, provider.issuedAt = .ok result → result.Explained
  notBefore : ∀ result, provider.notBefore = .ok result → result.Explained
  notAfter : ∀ result, provider.notAfter = .ok result → result.Explained
  audience : ∀ result, provider.audience = .ok result → result.Explained
  issuer : ∀ result, provider.issuer = .ok result → result.Explained
  applicationIds :
    ∀ result, provider.applicationIds = .ok result → result.Explained
  ipAddresses : ∀ result, provider.ipAddresses = .ok result → result.Explained
  virtualMachineId :
    ∀ result, provider.virtualMachineId = .ok result → result.Explained
  tokenId : ∀ result, provider.tokenId = .ok result → result.Explained

namespace JwtPropertyProvider

variable (runtime : Runtime) (library : JwtLibrary)
  (provider : JwtPropertyProvider)

theorem explained_of_map {time : Throws DateTimeOffset}
    {result : Result DateTimeOffset ErrorSet}
    (hresult : Except.ok <$> time = (.ok result : Throws _)) :
    result.Explained := by
  cases time with
  | error exception => cases hresult
  | ok instant =>
      obtain rfl := Except.ok.inj hresult
      exact .ok instant

theorem explained_audience : provider.audience.Explained := by
  unfold audience
  split
  · exact .create _
  · exact .create _
  · exact .ok _
  · exact .create _

theorem explained_applicationIds :
    (provider.applicationIds runtime).Explained := by
  simp only [applicationIds]
  split
  · exact .create _
  · exact .ok _

theorem explained_ipAddresses : (provider.ipAddresses runtime).Explained := by
  refine Result.Explained.reduce fun result hresult => ?_
  obtain ⟨value, -, rfl⟩ := List.mem_map.mp hresult
  unfold parseIpAddress
  split
  · exact .create _
  · exact .ok _

theorem explained_tokenId : (provider.tokenId runtime).Explained := by
  simp only [tokenId]
  split
  · exact .create _
  · exact .ok _

theorem explains : (provider.toProvider runtime library).Explains where
  issuedAt := by
    intro result hresult
    simp only [toProvider, issuedAt] at hresult
    cases hiat : provider.jwt.iat with
    | none =>
        rw [hiat] at hresult
        obtain rfl := Except.ok.inj hresult
        exact .create _
    | some iat =>
        rw [hiat] at hresult
        exact explained_of_map hresult
  notBefore := fun result hresult => explained_of_map hresult
  notAfter := fun result hresult => explained_of_map hresult
  audience := by
    intro result hresult
    obtain rfl := Except.ok.inj hresult
    exact provider.explained_audience
  issuer := by
    intro result hresult
    obtain rfl := Except.ok.inj hresult
    exact .ok _
  applicationIds := by
    intro result hresult
    obtain rfl := Except.ok.inj hresult
    exact (provider.explained_applicationIds runtime).map nonNull
  ipAddresses := by
    intro result hresult
    obtain rfl := Except.ok.inj hresult
    exact (provider.explained_ipAddresses runtime).map some
  virtualMachineId := by
    intro result hresult
    obtain rfl := Except.ok.inj hresult
    exact .ok _
  tokenId := by
    intro result hresult
    obtain rfl := Except.ok.inj hresult
    exact provider.explained_tokenId runtime

end JwtPropertyProvider

/-! ## The parser -/

/-- Whatever `Build` returns, it has asked for all nine values, and has joined
the answers. -/
theorem EntitlementTokenProperties.build_explained
    {provider : ITokenPropertyProvider} (hexplains : provider.Explains)
    {result : Result EntitlementTokenProperties ErrorSet}
    (hbuild : build provider = .ok result) : result.Explained := by
  unfold build at hbuild
  obtain ⟨notBefore, hnotBefore, hbuild⟩ := Traversal.bind_eq_ok_iff.mp hbuild
  obtain ⟨notAfter, hnotAfter, hbuild⟩ := Traversal.bind_eq_ok_iff.mp hbuild
  obtain ⟨issuedAt, hissuedAt, hbuild⟩ := Traversal.bind_eq_ok_iff.mp hbuild
  obtain ⟨issuer, hissuer, hbuild⟩ := Traversal.bind_eq_ok_iff.mp hbuild
  obtain ⟨audience, haudience, hbuild⟩ := Traversal.bind_eq_ok_iff.mp hbuild
  obtain ⟨applicationIds, happlicationIds, hbuild⟩ :=
    Traversal.bind_eq_ok_iff.mp hbuild
  obtain ⟨ipAddresses, hipAddresses, hbuild⟩ := Traversal.bind_eq_ok_iff.mp hbuild
  obtain ⟨virtualMachineId, hvirtualMachineId, hbuild⟩ :=
    Traversal.bind_eq_ok_iff.mp hbuild
  obtain ⟨tokenId, htokenId, hbuild⟩ := Traversal.bind_eq_ok_iff.mp hbuild
  have hjoined := (hexplains.notBefore _ hnotBefore)
    |>.join (hexplains.notAfter _ hnotAfter)
    |>.join (hexplains.issuedAt _ hissuedAt)
    |>.join (hexplains.issuer _ hissuer)
    |>.join (hexplains.audience _ haudience)
    |>.join (hexplains.applicationIds _ happlicationIds)
    |>.join (hexplains.ipAddresses _ hipAddresses)
    |>.join (hexplains.virtualMachineId _ hvirtualMachineId)
    |>.join (hexplains.tokenId _ htokenId)
  dsimp only at hbuild
  split at hbuild
  next errors hfailed =>
    obtain rfl := Except.ok.inj hbuild
    intro errors' herrors
    obtain rfl := Except.error.inj herrors
    exact hjoined errors hfailed
  next =>
    obtain ⟨properties, -, hbuild⟩ := Traversal.bind_eq_ok_iff.mp hbuild
    obtain rfl := Except.ok.inj hbuild
    exact .ok properties

namespace JwtPropertyParser

variable {runtime : Runtime} {library : JwtLibrary} {parser : JwtPropertyParser}
  {now : DateTimeOffset} {token : String}

/-- `Parse` does not throw, and what it returns are properties or a set of
errors which is not empty. -/
def Returns (outcome : Throws (Result EntitlementTokenProperties ErrorSet)) :
    Prop :=
  ∃ result, outcome = .ok result ∧ result.Explained

/-- If the library validates the token and reports that it has no `nbf` claim,
the local time zone is not ahead of UTC at `DateTime.MinValue`. -/
def StartRepresentable (runtime : Runtime) (library : JwtLibrary)
    (parser : JwtPropertyParser) (now : DateTimeOffset) (token : String) :
    Prop :=
  ∀ principal jwt,
    library.validateToken now parser.validationParameters token =
      .ok (principal, .jwt jwt) → jwt.validFrom = .minValue →
        0 ≤ -runtime.localOffset .minValue ∧
          -runtime.localOffset .minValue ≤ maxTicks

theorem explained_of_parse
    {result : Result EntitlementTokenProperties ErrorSet}
    (hparse : parser.parse runtime library now token = .ok result) :
    result.Explained := by
  unfold parse at hparse
  rcases hextracted : parser.extractJwt runtime library now token with
    errors | ⟨principal, jwt⟩
  · have herrors : result = .error errors := by
      rw [hextracted] at hparse
      exact (Except.ok.inj hparse).symm
    have hexplained : (parser.extractJwt runtime library now token).Explained := by
      unfold extractJwt
      split
      · exact .ok _
      · exact .create _
      · exact .create _
    subst herrors
    intro errors' herrors'
    obtain rfl := Except.error.inj herrors'
    exact hexplained errors hextracted
  · have hbuild : EntitlementTokenProperties.build
        ((⟨principal, jwt⟩ : JwtPropertyProvider).toProvider runtime library) =
          .ok result := by
      rw [hextracted] at hparse
      exact hparse
    exact EntitlementTokenProperties.build_explained
      (JwtPropertyProvider.explains runtime library ⟨principal, jwt⟩) hbuild

theorem parse_of_start (hparties : library.ChecksParties)
    (hinstants : library.ReportsInstants) {principal : ClaimsPrincipal}
    {jwt : JwtSecurityToken}
    (hvalidated : library.validateToken now parser.validationParameters token =
      .ok (principal, .jwt jwt))
    (hstart : ∃ instant,
      DateTimeOffset.ofDateTime runtime.localOffset jwt.validFrom =
        .ok instant) :
    ∃ result, parser.parse runtime library now token = .ok result := by
  rw [parse_of_validated hvalidated]
  let provider : JwtPropertyProvider := ⟨principal, jwt⟩
  have hnotBefore : ∃ result, provider.notBefore runtime = .ok result := by
    obtain ⟨instant, hinstant⟩ := hstart
    exact ⟨.ok instant, congrArg (Except.ok <$> ·) hinstant⟩
  have hnotAfter : ∃ result, provider.notAfter runtime = .ok result := by
    have hutc := hinstants.validTo _ _ _ _ _ hvalidated rfl
    exact ⟨_, congrArg (Except.ok <$> ·)
      (DateTimeOffset.ofDateTime_utc runtime.localOffset hutc)⟩
  have hissuedAt : ∃ result, provider.issuedAt runtime library = .ok result := by
    unfold JwtPropertyProvider.issuedAt
    cases hiat : provider.jwt.iat with
    | none => exact ⟨_, rfl⟩
    | some iat =>
        exact ⟨_, congrArg (Except.ok <$> ·)
          (DateTimeOffset.ofDateTime_utc runtime.localOffset
            (hinstants.epochTime iat))⟩
  have htotal : (provider.toProvider runtime library).Total :=
    ⟨hissuedAt, hnotBefore, hnotAfter, ⟨_, rfl⟩, ⟨_, rfl⟩, ⟨_, rfl⟩, ⟨_, rfl⟩,
      ⟨_, rfl⟩, ⟨_, rfl⟩⟩
  rcases EntitlementTokenProperties.build_cases htotal with
    ⟨values, hsupplies⟩ | ⟨errors, herrors, -⟩
  · obtain ⟨issuer, -, hissuerNe, hissuer⟩ :=
      hparties.issuer _ _ _ _ _ hvalidated rfl
    obtain ⟨audience, audiences, -, haudienceNe, haudiences, hmem⟩ :=
      hparties.audience _ _ _ _ _ hvalidated rfl
    have hvaluesIssuer : values.issuer = some issuer := by
      have hsupplied := Except.ok.inj (Except.ok.inj hsupplies.issuer)
      exact hsupplied.symm.trans hissuer
    have hvaluesAudience : values.audience = some audience := by
      obtain ⟨single, hsingle⟩ :=
        (JwtPropertyProvider.readable_of_supplies hsupplies).audience
      have hsupplied := Except.ok.inj hsupplies.audience
      obtain rfl : audiences = [single] :=
        Option.some.inj (haudiences.symm.trans hsingle)
      obtain rfl := List.mem_singleton.mp hmem
      simp only [JwtPropertyProvider.audience, hsingle] at hsupplied
      exact (Except.ok.inj hsupplied).symm
    rw [EntitlementTokenProperties.build_of_supplies hsupplies,
      EntitlementTokenProperties.select_eq_ok_iff.mpr ⟨?_, ?_,
        JwtPropertyProvider.listsPresent_of_supplies hsupplies, rfl⟩]
    · exact ⟨_, rfl⟩
    · simp [hvaluesIssuer, isNullOrEmpty, hissuerNe]
    · simp [hvaluesAudience, isNullOrEmpty, haudienceNe]
  · exact ⟨_, herrors⟩

/-- Without an `nbf` claim, the start which is converted first of all is
`DateTime.MinValue`. -/
theorem start_of_parse {principal : ClaimsPrincipal} {jwt : JwtSecurityToken}
    {result : Result EntitlementTokenProperties ErrorSet}
    (hvalidated : library.validateToken now parser.validationParameters token =
      .ok (principal, .jwt jwt))
    (hparse : parser.parse runtime library now token = .ok result) :
    ∃ instant, DateTimeOffset.ofDateTime runtime.localOffset jwt.validFrom =
      .ok instant := by
  rw [parse_of_validated hvalidated] at hparse
  obtain ⟨notBefore, hnotBefore, -⟩ := Traversal.bind_eq_ok_iff.mp hparse
  have hmapped : Except.ok <$> DateTimeOffset.ofDateTime runtime.localOffset
      jwt.validFrom = (.ok notBefore : Throws _) := hnotBefore
  cases hstart : DateTimeOffset.ofDateTime runtime.localOffset jwt.validFrom with
  | error exception =>
      rw [hstart] at hmapped
      cases hmapped
  | ok instant => exact ⟨instant, rfl⟩

theorem parse_of_startRepresentable (hparties : library.ChecksParties)
    (hinstants : library.ReportsInstants)
    (hrepresentable : StartRepresentable runtime library parser now token) :
    ∃ result, parser.parse runtime library now token = .ok result := by
  by_cases hvalidated : ∃ principal jwt,
      library.validateToken now parser.validationParameters token =
        .ok (principal, .jwt jwt)
  · obtain ⟨principal, jwt, hvalidated⟩ := hvalidated
    refine parse_of_start hparties hinstants hvalidated ?_
    rcases hinstants.validFrom _ _ _ _ _ hvalidated with hutc | hmissing
    · exact ⟨_, DateTimeOffset.ofDateTime_utc _ hutc⟩
    · have hrange := hrepresentable principal jwt hvalidated hmissing
      rw [hmissing]
      exact (DateTimeOffset.ofDateTime_minValue _).mpr hrange
  · obtain ⟨errors, herrors⟩ := parse_of_not_validated runtime
      fun principal jwt hvalid => hvalidated ⟨principal, jwt, hvalid⟩
    exact ⟨_, herrors⟩

/-- `Parse` throws exactly on the tokens without an `nbf` claim which the
library validates, where the local time is ahead of UTC. -/
theorem returns_iff (hparties : library.ChecksParties)
    (hinstants : library.ReportsInstants) :
    Returns (parser.parse runtime library now token) ↔
      StartRepresentable runtime library parser now token := by
  constructor
  · rintro ⟨result, hparse, -⟩ principal jwt hvalidated hmissing
    have hstart := start_of_parse hvalidated hparse
    rw [hmissing] at hstart
    exact (DateTimeOffset.ofDateTime_minValue _).mp hstart
  · intro hrepresentable
    obtain ⟨result, hparse⟩ :=
      parse_of_startRepresentable hparties hinstants hrepresentable
    exact ⟨result, hparse, explained_of_parse hparse⟩

end JwtPropertyParser

/-! ## A token without a start -/

namespace MissingStart

def withoutStart (jwt : JwtSecurityToken) : JwtSecurityToken where
  claims := jwt.claims.filter fun claim => claim.type != "nbf"
  audiences := jwt.audiences
  issuer := jwt.issuer
  validFrom := .minValue
  validTo := jwt.validTo
  iat := jwt.iat

/-- A token which starts at second zero is written without an `nbf` claim. -/
def omitStart : ClaimsPrincipal × SecurityToken →
    ClaimsPrincipal × SecurityToken
  | (principal, .jwt jwt) =>
      if jwt.validFrom.ticks = 0 then
        (⟨principal.claims.filter fun claim => claim.type != "nbf"⟩,
          .jwt (withoutStart jwt))
      else (principal, .jwt jwt)
  | other => other

def library : JwtLibrary :=
  { JwtLibrary.reference with
    validateToken := fun now parameters token =>
      omitStart <$> JwtReference.validateToken now parameters token }

theorem validateToken_eq_ok {now : DateTimeOffset}
    {parameters : TokenValidationParameters} {token : String}
    {principal : ClaimsPrincipal} {jwt : JwtSecurityToken}
    (hvalidated : library.validateToken now parameters token =
      .ok (principal, .jwt jwt)) :
    ∃ written original, JwtReference.validateToken now parameters token =
        .ok (written, .jwt original) ∧
      (jwt = original ∨ jwt = withoutStart original) := by
  have hmapped : omitStart <$> JwtReference.validateToken now parameters token =
      .ok (principal, .jwt jwt) := hvalidated
  rcases houtcome : JwtReference.validateToken now parameters token with
    exception | ⟨written, original | _⟩
  · rw [houtcome] at hmapped
    cases hmapped
  · refine ⟨written, original, rfl, ?_⟩
    rw [houtcome] at hmapped
    have hpair : omitStart (written, .jwt original) = (principal, .jwt jwt) :=
      Except.ok.inj hmapped
    by_cases hstart : original.validFrom.ticks = 0
    · simp only [omitStart, if_pos hstart] at hpair
      exact .inr (SecurityToken.jwt.inj (Prod.mk.inj hpair).2).symm
    · simp only [omitStart, if_neg hstart] at hpair
      exact .inl (SecurityToken.jwt.inj (Prod.mk.inj hpair).2).symm
  · rw [houtcome] at hmapped
    cases hmapped

theorem checksParties : library.ChecksParties := by
  refine ⟨?_, ?_⟩
  · intro now parameters token principal jwt hvalidated hvalidates
    obtain ⟨written, original, horiginal, hjwt⟩ :=
      validateToken_eq_ok hvalidated
    have hparty := JwtReference.checksParties.audience now parameters token written
      original horiginal hvalidates
    rcases hjwt with rfl | rfl
    · exact hparty
    · exact hparty
  · intro now parameters token principal jwt hvalidated hvalidates
    obtain ⟨written, original, horiginal, hjwt⟩ :=
      validateToken_eq_ok hvalidated
    have hparty := JwtReference.checksParties.issuer now parameters token written
      original horiginal hvalidates
    rcases hjwt with rfl | rfl
    · exact hparty
    · exact hparty

theorem reportsInstants : library.ReportsInstants := by
  refine ⟨?_, ?_, fun _ => rfl⟩
  · intro now parameters token principal jwt hvalidated
    obtain ⟨written, original, horiginal, rfl | rfl⟩ :=
      validateToken_eq_ok hvalidated
    · exact .inl (JwtReference.reportsUtc.lifetime _ _ _ _ _ horiginal).1
    · exact .inr rfl
  · intro now parameters token principal jwt hvalidated _
    obtain ⟨written, original, horiginal, rfl | rfl⟩ :=
      validateToken_eq_ok hvalidated
    · exact (JwtReference.reportsUtc.lifetime _ _ _ _ _ horiginal).2
    · exact (JwtReference.reportsUtc.lifetime _ _ _ _ _ horiginal).2

def runtime : Runtime :=
  { Runtime.reference with localOffset := fun _ => 3600 * ticksPerSecond }

def content : JwtReference.Content where
  claims := [⟨"id", "1"⟩, ⟨"app", "contosoapp"⟩, ⟨"ip", "4xxxxx"⟩]
  notBefore := 0
  expires := 1000
  issuedAt := 0
  issuer := some defaultIssuer
  audience := some defaultAudience
  signedWith := none
  encryptedFor := none

def parser : JwtPropertyParser :=
  ⟨some defaultAudience, some defaultIssuer, none, none⟩

theorem returns_iff_missingStart :
    JwtPropertyParser.Returns
        (parser.parse runtime library .minValue content.serialize) ↔
      JwtPropertyParser.StartRepresentable runtime library parser .minValue
        content.serialize :=
  JwtPropertyParser.returns_iff checksParties reportsInstants

/-- East of Greenwich, a valid token without an `nbf` claim makes the parser
throw. -/
theorem not_returns_missingStart :
    ¬JwtPropertyParser.Returns
      (parser.parse runtime library .minValue content.serialize) := by
  rintro ⟨result, hparse, -⟩
  have hpasses : content.Passes .minValue parser.validationParameters := by
    decide
  have hvalidated : library.validateToken .minValue parser.validationParameters
      content.serialize = .ok (omitStart (content.principal, .jwt content.jwt)) :=
    congrArg (omitStart <$> ·) (JwtReference.validateToken_serialize hpasses)
  obtain ⟨instant, hinstant⟩ :=
    JwtPropertyParser.start_of_parse hvalidated hparse
  have hrange : 0 ≤ -runtime.localOffset .minValue ∧ _ :=
    (DateTimeOffset.ofDateTime_minValue _).mp ⟨instant, hinstant⟩
  exact absurd hrange.1 (by decide)

end MissingStart

end SoftwareEntitlement
