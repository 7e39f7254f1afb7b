import SoftwareEntitlement.TokenRoundTrip
import SoftwareEntitlement.TokenVerification

/-!
# Tokens which a verifier accepts

Whatever audience and issuer a parser expects, a generator with matching keys
can issue a token for one application and one address, and the verifier
accepts it.  What keys the generator needs is therefore all that stands
between a token and its acceptance.
-/

namespace SoftwareEntitlement

/-- Properties which grant a request keep granting it over the round trip. -/
theorem verify_of_roundTrips {runtime : Runtime}
    {tokenPropertyParser : ITokenPropertyParser} {now : DateTimeOffset}
    {token : String} {original parsed : EntitlementTokenProperties}
    {request : TokenVerificationRequest}
    (hparse : tokenPropertyParser now token = .ok (.ok parsed))
    (hround : original.RoundTrips parsed)
    (happlication : request.applicationId ∈ original.applications)
    (haddress : request.ipAddress ∈ original.ipAddresses) :
    TokenVerifier.verify runtime tokenPropertyParser now request token =
      .ok (.ok parsed) := by
  have hgrantsApplication :
      TokenVerifier.grantsApplication runtime parsed request.applicationId =
        true :=
    List.any_eq_true.mpr ⟨_, (hround.applications _).mpr happlication,
      runtime.equalsOrdinalIgnoreCase_refl _⟩
  have hgrantsAddress :
      TokenVerifier.grantsAddress parsed request.ipAddress = true :=
    List.any_eq_true.mpr ⟨_, (hround.ipAddresses _).mpr haddress,
      beq_self_eq_true _⟩
  exact (TokenVerifier.verify_eq_ok_iff runtime).mpr
    ⟨hparse, hgrantsApplication, hgrantsAddress⟩

/-- Properties which the parser expects. -/
def JwtPropertyParser.issuedProperties (parser : JwtPropertyParser)
    (virtualMachineId : Option String) : EntitlementTokenProperties :=
  SoftwareEntitlement.issuedProperties (parser.expectedAudience.getD "")
    (parser.expectedIssuer.getD "") virtualMachineId

section Issuing

variable {runtime : Runtime} {library : JwtLibrary}
  {generator : TokenGenerator} {parser : JwtPropertyParser}

/-- A generator with matching keys can issue a token which the parser accepts,
and which verifies for the request. -/
theorem exists_issued (hruntime : runtime.SeparatesClaimTypes)
    (hparses : runtime.ParsesAddresses) (hlibrary : library.TransportsTokens)
    (hkeys : generator.MatchedBy library parser)
    (haudience : isNullOrEmpty parser.expectedAudience = false)
    (hissuer : isNullOrEmpty parser.expectedIssuer = false)
    (virtualMachineId : Option String) :
    ∃ token parsed,
      generator.generate runtime library
          (parser.issuedProperties virtualMachineId) = .ok token ∧
        parser.parse runtime library referenceMoment token = .ok (.ok parsed) ∧
        parsed.virtualMachineId = nullIfEmpty virtualMachineId ∧
        TokenVerifier.verify runtime (parser.parse runtime library)
          referenceMoment issuedRequest token = .ok (.ok parsed) := by
  obtain ⟨audience, hexpectedAudience, haudienceNe⟩ :=
    isNullOrEmpty_eq_false.mp haudience
  obtain ⟨issuer, hexpectedIssuer, hissuerNe⟩ :=
    isNullOrEmpty_eq_false.mp hissuer
  have hwritable :=
    writable_issuedProperties haudienceNe hissuerNe virtualMachineId
  have hissued : parser.issuedProperties virtualMachineId =
      issuedProperties audience issuer virtualMachineId := by
    simp [JwtPropertyParser.issuedProperties, hexpectedAudience,
      hexpectedIssuer]
  rw [hissued]
  obtain ⟨token, hgenerate⟩ :=
    generate_eq_ok runtime hlibrary hwritable hkeys
  obtain ⟨parsed, hparse, hround⟩ := parse_generated hruntime hparses hlibrary
    hwritable (hkeys.matches hwritable hexpectedAudience hexpectedIssuer)
    (inForce_of_between (le_refl _) hwritable.lifetime.le) hgenerate
  exact ⟨token, parsed, hgenerate, hparse, hround.virtualMachineId,
    verify_of_roundTrips hparse hround (List.mem_singleton.mpr rfl)
      (List.mem_singleton.mpr rfl)⟩

end Issuing

end SoftwareEntitlement
