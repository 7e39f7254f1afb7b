import SoftwareEntitlement.CertificateThumbprints
import SoftwareEntitlement.JwtLibrary
import SoftwareEntitlement.Traversals

/-!
# Looking up certificates

`CertificateStore` looks in seven stores of the user and of the machine.  A
store which the platform does not support counts as empty.  From each of the
others `FindByThumbprint` takes the matching entry, and `SingleOrDefault`
throws when there are several: copies are allowed for between the stores and
not within one.
-/

namespace SoftwareEntitlement

inductive StoreName where
  | my
  | trustedPeople
  | addressBook
  | authRoot
  | trustedPublisher
  | certificateAuthority
  | root
  deriving DecidableEq, Repr

inductive StoreLocation where
  | currentUser
  | localMachine
  deriving DecidableEq, Repr

def isExpectedOnLinux : ClrException → Bool
  | .platformNotSupported _ => true
  | .cryptographic _ => true
  | _ => false

/-- The certificate stores of the platform: what opening each of them and
reading its certificates results in. -/
structure X509Stores (Certificate : Type) where
  certificates : StoreName → StoreLocation → Throws (List Certificate)
  unsupported : ∀ name location exception,
    certificates name location = .error exception →
      isExpectedOnLinux exception = true

namespace CertificateStore

def storeNames : List StoreName :=
  [.my, .trustedPeople, .addressBook, .authRoot, .trustedPublisher,
    .certificateAuthority, .root]

/-- Prefer user cert to machine cert. -/
def storeLocations : List StoreLocation := [.currentUser, .localMachine]

def places : List (StoreName × StoreLocation) :=
  storeNames.flatMap fun name => storeLocations.map fun location =>
    (name, location)

/-- `FindAll(storeName, storeLocation)`. -/
def findAllIn {Certificate : Type} (stores : X509Stores Certificate)
    (storeName : StoreName) (storeLocation : StoreLocation) :
    Throws (List Certificate) :=
  match stores.certificates storeName storeLocation with
  | .ok certificates => .ok certificates
  | .error exception =>
      if isExpectedOnLinux exception then .ok [] else .error exception

def findAll {Certificate : Type} (stores : X509Stores Certificate) :
    Throws (List Certificate) := do
  let found ← places.mapM fun (name, location) => findAllIn stores name location
  return found.flatten

variable (runtime : TextRuntime) (stores : X509Stores X509Certificate2)

/-- `X509Certificate2Collection.Find` by thumbprint. -/
def find (collection : List X509Certificate2)
    (thumbprint : CertificateThumbprint) : List X509Certificate2 :=
  collection.filter fun certificate =>
    thumbprint.matchesThumbprint runtime (some certificate.thumbprint)

/-- `SingleOrDefault`. -/
def singleOrDefault {α : Type} : List α → Throws (Option α)
  | [] => .ok none
  | [single] => .ok (some single)
  | _ => .error (.invalidOperation "Sequence contains more than one element")

/-- `FindByThumbprint(thumbprint, storeName, storeLocation)`. -/
def findByThumbprintIn (thumbprint : CertificateThumbprint)
    (storeName : StoreName) (storeLocation : StoreLocation) :
    Throws (Option X509Certificate2) :=
  let found := do
    let certificates ← stores.certificates storeName storeLocation
    singleOrDefault (find runtime certificates thumbprint)
  match found with
  | .ok certificate => .ok certificate
  | .error exception =>
      if isExpectedOnLinux exception then .ok none else .error exception

def findByThumbprint (purpose : String) (thumbprint : CertificateThumbprint) :
    Throws (Result X509Certificate2 ErrorSet) := do
  let found ← places.mapM fun (name, location) =>
    findByThumbprintIn runtime stores thumbprint name location
  let candidates := found.filterMap id
  match candidates.find? X509Certificate2.hasPrivateKey with
  | some certWithPrivateKey => return .ok certWithPrivateKey
  | none =>
      match candidates.head? with
      | some certificate => return .ok certificate
      | none =>
          return .error (.create ("Did not find " ++ purpose ++
            " certificate " ++ thumbprint.toString))

/-! ## What a lookup finds -/

/-- Some supported store holds the certificate, and it has the thumbprint. -/
def Holds (thumbprint : CertificateThumbprint)
    (certificate : X509Certificate2) : Prop :=
  ∃ name location certificates,
    stores.certificates name location = .ok certificates ∧
      certificate ∈ find runtime certificates thumbprint

/-- The lookup returns, finds a certificate exactly when there is one, and
finds one with its private key when there is one. -/
def CompleteLookup (purpose : String) (thumbprint : CertificateThumbprint) :
    Prop :=
  ∃ result, findByThumbprint runtime stores purpose thumbprint = .ok result ∧
    ((∃ certificate, result = .ok certificate) ↔
      ∃ certificate, Holds runtime stores thumbprint certificate) ∧
    ∀ certificate, result = .ok certificate →
      Holds runtime stores thumbprint certificate ∧
        ((∃ held, Holds runtime stores thumbprint held ∧
            held.hasPrivateKey = true) →
          certificate.hasPrivateKey = true)

variable {runtime stores} {thumbprint : CertificateThumbprint}

theorem mem_places (name : StoreName) (location : StoreLocation) :
    (name, location) ∈ places := by
  cases name <;> cases location <;> decide

/-- No store makes it throw: what opening a store throws is expected. -/
theorem exists_findAll {Certificate : Type} (stores : X509Stores Certificate) :
    ∃ found, findAll stores = .ok found := by
  have hplace : ∀ name location,
      ∃ found, findAllIn stores name location = .ok found := by
    intro name location
    unfold findAllIn
    cases hstore : stores.certificates name location with
    | ok certificates => exact ⟨certificates, rfl⟩
    | error exception =>
        exact ⟨[], if_pos (stores.unsupported name location exception hstore)⟩
  obtain ⟨found, hfound⟩ := Traversal.exists_mapM_iff.mpr
    fun place (_ : place ∈ places) => hplace place.1 place.2
  exact ⟨found.flatten, Traversal.bind_eq_ok_iff.mpr ⟨found, hfound, rfl⟩⟩

theorem singleOrDefault_eq_ok_iff {α : Type} {items : List α}
    {single : Option α} :
    singleOrDefault items = .ok single ↔ items = single.toList := by
  match items with
  | [] => cases single <;> simp [singleOrDefault]
  | [item] => cases single <;> simp [singleOrDefault]
  | first :: second :: rest => cases single <;> simp [singleOrDefault]

theorem exists_eq_toList_iff {α : Type} {items : List α} :
    (∃ single : Option α, items = single.toList) ↔ items.length ≤ 1 := by
  match items with
  | [] => exact iff_of_true ⟨none, rfl⟩ (Nat.zero_le 1)
  | [item] => exact iff_of_true ⟨some item, rfl⟩ le_rfl
  | first :: second :: rest =>
      simp only [List.length_cons, Nat.reduceLeDiff, iff_false]
      rintro ⟨_ | single, heq⟩ <;> cases heq

theorem isExpectedOnLinux_singleOrDefault {α : Type} {items : List α}
    {exception : ClrException}
    (hthrows : singleOrDefault items = .error exception) :
    isExpectedOnLinux exception = false := by
  match items, hthrows with
  | first :: second :: rest, hthrows =>
      cases hthrows
      rfl

theorem findByThumbprintIn_eq_ok_iff {name : StoreName}
    {location : StoreLocation} {found : Option X509Certificate2} :
    findByThumbprintIn runtime stores thumbprint name location = .ok found ↔
      (∀ certificates, stores.certificates name location = .ok certificates →
        find runtime certificates thumbprint = found.toList) ∧
      ∀ exception, stores.certificates name location = .error exception →
        found = none := by
  unfold findByThumbprintIn
  cases hstore : stores.certificates name location with
  | error exception =>
      simp [bind, Except.bind, stores.unsupported name location exception hstore,
        eq_comm]
  | ok certificates =>
      simp only [bind, Except.bind, Except.ok.injEq, forall_eq', reduceCtorEq,
        false_implies, implies_true, and_true]
      rw [← singleOrDefault_eq_ok_iff]
      cases hsingle : singleOrDefault (find runtime certificates thumbprint) with
      | error exception =>
          simp [isExpectedOnLinux_singleOrDefault hsingle]
      | ok single => simp

theorem exists_findByThumbprintIn_iff {name : StoreName}
    {location : StoreLocation} :
    (∃ found, findByThumbprintIn runtime stores thumbprint name location =
        .ok found) ↔
      ∀ certificates, stores.certificates name location = .ok certificates →
        (find runtime certificates thumbprint).length ≤ 1 := by
  simp only [findByThumbprintIn_eq_ok_iff]
  cases hstore : stores.certificates name location with
  | error exception => simp
  | ok certificates => simp [← exists_eq_toList_iff]

theorem holds_of_findByThumbprintIn {name : StoreName}
    {location : StoreLocation} {certificate : X509Certificate2}
    (hfound : findByThumbprintIn runtime stores thumbprint name location =
      .ok (some certificate)) :
    Holds runtime stores thumbprint certificate := by
  obtain ⟨hsupported, hunsupported⟩ := findByThumbprintIn_eq_ok_iff.mp hfound
  cases hstore : stores.certificates name location with
  | error exception => cases hunsupported exception hstore
  | ok certificates =>
      refine ⟨name, location, certificates, hstore, ?_⟩
      rw [hsupported certificates hstore]
      exact List.mem_singleton_self certificate

section Candidates

variable {found : List (Option X509Certificate2)}

/-- The candidates are exactly the matching certificates of all stores. -/
theorem mem_candidates_iff
    (hfound : (places.mapM fun place : StoreName × StoreLocation =>
      findByThumbprintIn runtime stores thumbprint place.1 place.2) = .ok found)
    {certificate : X509Certificate2} :
    certificate ∈ found.filterMap id ↔
      Holds runtime stores thumbprint certificate := by
  have hmem : certificate ∈ found.filterMap id ↔
      ∃ place ∈ places, findByThumbprintIn runtime stores thumbprint place.1
        place.2 = .ok (some certificate) := by
    rw [← Traversal.mem_iff_of_mapM hfound]
    simp
  rw [hmem]
  constructor
  · rintro ⟨⟨name, location⟩, -, hplace⟩
    exact holds_of_findByThumbprintIn hplace
  · rintro ⟨name, location, certificates, hstore, hcertificate⟩
    refine ⟨(name, location), mem_places name location, ?_⟩
    obtain ⟨single, hsingle⟩ := Traversal.exists_mapM_iff.mp ⟨found, hfound⟩
      (name, location) (mem_places name location)
    have hlist := (findByThumbprintIn_eq_ok_iff.mp hsingle).1 certificates hstore
    rw [hlist, Option.mem_toList] at hcertificate
    exact hcertificate ▸ hsingle

theorem completeLookup_of_candidates (purpose : String)
    (hfound : (places.mapM fun place : StoreName × StoreLocation =>
      findByThumbprintIn runtime stores thumbprint place.1 place.2) =
        .ok found) :
    CompleteLookup runtime stores purpose thumbprint := by
  have hcandidates : ∀ certificate, certificate ∈ found.filterMap id ↔
      Holds runtime stores thumbprint certificate :=
    fun _ => mem_candidates_iff hfound
  unfold CompleteLookup findByThumbprint
  rw [hfound]
  simp only [bind, Except.bind]
  cases hprivate : (found.filterMap id).find? X509Certificate2.hasPrivateKey with
  | some certificate =>
      have hholds := (hcandidates certificate).mp
        (List.mem_of_find?_eq_some hprivate)
      refine ⟨.ok certificate, rfl, ⟨fun _ => ⟨certificate, hholds⟩,
        fun _ => ⟨certificate, rfl⟩⟩, ?_⟩
      rintro _ ⟨⟩
      exact ⟨hholds, fun _ => List.find?_some hprivate⟩
  | none =>
      have hnone : ∀ held, Holds runtime stores thumbprint held →
          held.hasPrivateKey = false := by
        intro held hheld
        simpa using List.find?_eq_none.mp hprivate held
          ((hcandidates held).mpr hheld)
      cases hhead : (found.filterMap id).head? with
      | some certificate =>
          have hholds := (hcandidates certificate).mp
            (List.mem_of_head? hhead)
          refine ⟨.ok certificate, rfl, ⟨fun _ => ⟨certificate, hholds⟩,
            fun _ => ⟨certificate, rfl⟩⟩, ?_⟩
          rintro _ ⟨⟩
          refine ⟨hholds, ?_⟩
          rintro ⟨held, hheld, hkey⟩
          rw [hnone held hheld] at hkey
          cases hkey
      | none =>
          refine ⟨_, rfl, ⟨?_, ?_⟩, ?_⟩
          · rintro ⟨certificate, heq⟩
            cases heq
          · rintro ⟨certificate, hholds⟩
            have hmem := (hcandidates certificate).mpr hholds
            rw [List.head?_eq_none_iff.mp hhead] at hmem
            cases hmem
          · rintro certificate heq
            cases heq

end Candidates

/-- A lookup which returns is complete. -/
theorem completeLookup_of_returns {purpose : String}
    {result : Result X509Certificate2 ErrorSet}
    (hreturns : findByThumbprint runtime stores purpose thumbprint =
      .ok result) :
    CompleteLookup runtime stores purpose thumbprint := by
  obtain ⟨found, hfound, -⟩ := Traversal.bind_eq_ok_iff.mp hreturns
  exact completeLookup_of_candidates purpose hfound

/-- A lookup returns exactly when it throws in none of the stores. -/
theorem exists_findByThumbprint_iff (purpose : String) :
    (∃ result, findByThumbprint runtime stores purpose thumbprint =
        .ok result) ↔
      ∀ name location certificates,
        stores.certificates name location = .ok certificates →
          (find runtime certificates thumbprint).length ≤ 1 := by
  constructor
  · rintro ⟨result, hreturns⟩ name location
    obtain ⟨found, hfound, -⟩ := Traversal.bind_eq_ok_iff.mp hreturns
    exact exists_findByThumbprintIn_iff.mp
      (Traversal.exists_mapM_iff.mp ⟨found, hfound⟩ (name, location)
        (mem_places name location))
  · intro hsingle
    obtain ⟨found, hfound⟩ := Traversal.exists_mapM_iff.mpr
      fun (place : StoreName × StoreLocation) (_ : place ∈ places) =>
        exists_findByThumbprintIn_iff.mpr (hsingle place.1 place.2)
    obtain ⟨result, hreturns, -⟩ := completeLookup_of_candidates purpose hfound
    exact ⟨result, hreturns⟩

end CertificateStore

/-- A lookup is complete exactly when no supported store holds several
certificates with the thumbprint. -/
theorem completeLookup_iff (runtime : TextRuntime)
    (stores : X509Stores X509Certificate2) (purpose : String)
    (thumbprint : CertificateThumbprint) :
    CertificateStore.CompleteLookup runtime stores purpose thumbprint ↔
      ∀ name location certificates,
        stores.certificates name location = .ok certificates →
          (CertificateStore.find runtime certificates thumbprint).length ≤
            1 := by
  rw [← CertificateStore.exists_findByThumbprint_iff purpose]
  constructor
  · rintro ⟨result, hreturns, -⟩
    exact ⟨result, hreturns⟩
  · rintro ⟨result, hreturns⟩
    exact CertificateStore.completeLookup_of_returns hreturns

/-- The personal store of the user holds these copies of a certificate, and
no other store is supported. -/
def storesWithCopies (copies : List Bool) :
    X509Stores X509Certificate2 where
  certificates
    | .my, .currentUser => .ok (copies.map fun hasPrivateKey =>
        ⟨"97EFF302", "sample key pair", hasPrivateKey, .ok ⟨"sample key pair"⟩⟩)
    | _, _ => .error (.platformNotSupported "Unix LocalMachine X509Store")
  unsupported := by
    intro name location exception hthrows
    cases name <;> cases location <;> cases hthrows <;> rfl

/-- Two copies of a certificate in one store: the lookup throws. -/
theorem not_completeLookup_of_copies :
    ¬CertificateStore.CompleteLookup .reference (storesWithCopies [false, true])
      "signing" ⟨"97EFF302"⟩ := by
  rintro ⟨result, hreturns, -⟩
  have hthrows : CertificateStore.findByThumbprint .reference
      (storesWithCopies [false, true]) "signing" ⟨"97EFF302"⟩ =
        .error (.invalidOperation
          "Sequence contains more than one element") := rfl
  rw [hthrows] at hreturns
  cases hreturns

end SoftwareEntitlement
