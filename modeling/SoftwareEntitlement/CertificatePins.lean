import SoftwareEntitlement.SearchLoops
import Mathlib.Data.List.Infix
import Mathlib.Data.List.TakeWhile

/-!
# Pinned certificates of the native client

The native client keeps a list of pinned certificates, built in or added by
the application, and looks for one of them in the certificate chain of the
server.  A `std::string` is a `String` with one character for each byte.
-/

namespace SoftwareEntitlement

open SearchLoop

/-- What the native client throws: its own exceptions, those which carry a
libcurl code, those of the JSON library and those with a system error code. -/
inductive NativeException where
  | exception (message : String)
  | curlException (code : ℕ) (message : String)
  | json (message : String)
  | system (code : ℕ) (message : String)
  deriving DecidableEq

abbrev Native := Except NativeException

/-! ## Strings -/

abbrev HasNull (text : String) : Prop := Char.ofNat 0 ∈ text.toList

/-- A string constructed from a `char*`, as `c_str()` hands it over, ends at the
first null character. -/
def cString (text : String) : String :=
  String.ofList (text.toList.takeWhile (· ≠ Char.ofNat 0))

theorem cString_eq_self_iff {text : String} :
    cString text = text ↔ ¬HasNull text := by
  rw [cString, ← String.toList_inj, String.toList_ofList,
    List.takeWhile_eq_self_iff]
  simp only [decide_eq_true_eq]
  constructor
  · exact fun hall hnull => hall _ hnull rfl
  · rintro hnone c hc rfl
    exact hnone hc

theorem not_hasNull_cString (text : String) : ¬HasNull (cString text) := by
  intro hnull
  rw [HasNull, cString, String.toList_ofList] at hnull
  simpa using List.mem_takeWhile_imp hnull

/-- What follows a null character is cut off with it. -/
theorem cString_append_null {text : String} (hnull : ¬HasNull text)
    (count : ℕ) : cString (text ++ String.ofList
      (List.replicate (count + 1) (Char.ofNat 0))) = text := by
  rw [cString, String.toList_append, String.toList_ofList,
    List.takeWhile_append_of_pos ?_, List.replicate_succ,
    List.takeWhile_cons_of_neg (by simp), List.append_nil, String.ofList_toList]
  intro c hc
  rw [decide_eq_true_eq]
  rintro rfl
  exact hnull hc

theorem hasNull_append {text rest : String} :
    HasNull (text ++ rest) ↔ HasNull text ∨ HasNull rest := by
  rw [HasNull, String.toList_append, List.mem_append]

/-- The text of an exception is read through `what()`, which hands over a
`char*`. -/
def NativeException.what : NativeException → String
  | .exception message => cString message
  | .curlException _ message => cString message
  | .json message => cString message
  | .system _ message => cString message

/-- `text.find(pattern) != npos`. -/
def contains (text pattern : String) : Bool :=
  decide (pattern.toList <:+: text.toList)

def isXDigit (c : Char) : Bool :=
  c.isDigit || ('a' ≤ c && c ≤ 'f') || ('A' ≤ c && c ≤ 'F')

def xDigitValue (c : Char) : ℕ :=
  if c.isDigit then c.toNat - 48
  else if 'a' ≤ c && c ≤ 'f' then c.toNat - 87
  else c.toNat - 55

/-- `std::stoul(digits, 0, 16)`, of hexadecimal digits. -/
def stoul16 (digits : List Char) : ℕ :=
  digits.foldl (fun value digit => 16 * value + xDigitValue digit) 0

/-! ## Thumbprints and pins -/

@[ext] structure SHA256Thumbprint where
  bytes : List UInt8
  size : bytes.length = 20
  deriving DecidableEq

def stripNonHexThumbprintDigits (input : String) : String :=
  String.ofList (input.toList.filter isXDigit)

def thumbprintToBinary (thumbprint : String) : Native SHA256Thumbprint :=
  let digits := stripNonHexThumbprintDigits thumbprint
  if digits.length ≠ 40 then
    .error (.exception ("Malformed thumbprint: '" ++ digits ++ "'"))
  else
    .ok {
      bytes := (List.range 20).map fun digit =>
        UInt8.ofNat (stoul16 ((digits.toList.drop (digit * 2)).take 2))
      size := by simp }

structure CertInfo where
  thumbprint : SHA256Thumbprint
  commonName : String
  allowedDnsNamespace : String := ""
  deriving DecidableEq

def microsoftItSslSha2 : CertInfo where
  thumbprint := ⟨[0x97, 0xef, 0xf3, 0x02, 0x86, 0x77, 0x89, 0x4b, 0xdd, 0x4f,
    0x9a, 0xc5, 0x3f, 0x78, 0x9b, 0xee, 0x5d, 0xf4, 0xad, 0x86], rfl⟩
  commonName := "Microsoft IT SSL SHA2"

def microsoftItSslSha2_2 : CertInfo where
  thumbprint := ⟨[0x94, 0x8e, 0x16, 0x52, 0x58, 0x62, 0x40, 0xd4, 0x53, 0x28,
    0x7a, 0xb6, 0x9c, 0xae, 0xb8, 0xf2, 0xf4, 0xf0, 0x21, 0x17], rfl⟩
  commonName := "Microsoft IT SSL SHA2"

def microsoftItTlsCa1 : CertInfo where
  thumbprint := ⟨[0x41, 0x7e, 0x22, 0x50, 0x37, 0xfb, 0xfa, 0xa4, 0xf9, 0x57,
    0x61, 0xd5, 0xae, 0x72, 0x9e, 0x1a, 0xea, 0x7e, 0x3a, 0x42], rfl⟩
  commonName := "Microsoft IT TLS CA 1"

def microsoftItTlsCa2 : CertInfo where
  thumbprint := ⟨[0x54, 0xd9, 0xd2, 0x02, 0x39, 0x08, 0x0c, 0x32, 0x31, 0x6e,
    0xd9, 0xff, 0x98, 0x0a, 0x48, 0x98, 0x8f, 0x4a, 0xdf, 0x2d], rfl⟩
  commonName := "Microsoft IT TLS CA 2"

def microsoftItTlsCa4 : CertInfo where
  thumbprint := ⟨[0x8a, 0x38, 0x75, 0x5d, 0x09, 0x96, 0x82, 0x3f, 0xe8, 0xfa,
    0x31, 0x16, 0xa2, 0x77, 0xce, 0x44, 0x6e, 0xac, 0x4e, 0x99], rfl⟩
  commonName := "Microsoft IT TLS CA 4"

def microsoftItTlsCa5 : CertInfo where
  thumbprint := ⟨[0xad, 0x89, 0x8a, 0xc7, 0x3d, 0xf3, 0x33, 0xeb, 0x60, 0xac,
    0x1f, 0x5f, 0xc6, 0xc4, 0xb2, 0x21, 0x9d, 0xdb, 0x79, 0xb7], rfl⟩
  commonName := "Microsoft IT TLS CA 5"

def batchUSGovCloudApiCa : CertInfo where
  thumbprint := ⟨[0x1f, 0xb8, 0x6b, 0x11, 0x68, 0xec, 0x74, 0x31, 0x54, 0x06,
    0x2e, 0x8c, 0x9c, 0xc5, 0xb1, 0x71, 0xa4, 0xb7, 0xcc, 0xb4], rfl⟩
  commonName := "DigiCert SHA2 Secure Server CA"
  allowedDnsNamespace := ".batch.usgovcloudapi.net"

def batchChinaCloudApiCa : CertInfo where
  thumbprint := ⟨[0x1f, 0xb8, 0x6b, 0x11, 0x68, 0xec, 0x74, 0x31, 0x54, 0x06,
    0x2e, 0x8c, 0x9c, 0xc5, 0xb1, 0x71, 0xa4, 0xb7, 0xcc, 0xb4], rfl⟩
  commonName := "DigiCert SHA2 Secure Server CA"
  allowedDnsNamespace := ".batch.chinacloudapi.cn"

def batchGermanyCloudApiCa : CertInfo where
  thumbprint := ⟨[0x2f, 0xc5, 0xde, 0x65, 0x28, 0xcd, 0xbe, 0x50, 0xa1, 0x4c,
    0x38, 0x2f, 0xc1, 0xde, 0x52, 0x4f, 0xaa, 0xbf, 0x95, 0xfc], rfl⟩
  commonName := "D-TRUST SSL Class 3 CA 1 2009"
  allowedDnsNamespace := ".batch.microsoftazure.de"

def microsoftIntermediateCerts : List CertInfo :=
  [microsoftItSslSha2, microsoftItSslSha2_2, microsoftItTlsCa1,
    microsoftItTlsCa2, microsoftItTlsCa4, microsoftItTlsCa5,
    batchUSGovCloudApiCa, batchChinaCloudApiCa, batchGermanyCloudApiCa]

/-! ## The list of pins -/

inductive PinCall where
  | init
  | addSslCertificate (sslCertThumbprint sslCertCommonName : String)

/-- One call; a malformed thumbprint is thrown before the list changes. -/
def PinCall.perform (sslCerts : List CertInfo) : PinCall → Native (List CertInfo)
  | .init => .ok (sslCerts ++ microsoftIntermediateCerts)
  | .addSslCertificate sslCertThumbprint sslCertCommonName => do
      let thumbprint ← thumbprintToBinary sslCertThumbprint
      return sslCerts ++ [{ thumbprint, commonName := sslCertCommonName }]

/-- The pins after a call which the application survives if it throws. -/
def PinCall.apply (sslCerts : List CertInfo) (call : PinCall) : List CertInfo :=
  match call.perform sslCerts with
  | .ok extended => extended
  | .error _ => sslCerts

def sslCertsAfter (calls : List PinCall) : List CertInfo :=
  calls.foldl PinCall.apply []

/-! ## The search in a certificate chain -/

/-- A certificate, as far as the client looks at it. -/
structure X509 where
  /-- The SHA-1 digest; none if it cannot be calculated. -/
  digest : Option (List UInt8)
  /-- The data of the common name in the subject, if it has one. -/
  commonNameData : Option String

namespace X509

def commonName (cert : X509) : Native String :=
  match cert.commonNameData with
  | none => .error (.exception "Certificate does not have a common name")
  | some data => .ok (cString data)

def thumbprint (cert : X509) : Native (List UInt8) :=
  match cert.digest with
  | none => do
      let name ← cert.commonName
      throw (.exception
        ("Failed to calculate thumbprint for certificate " ++ name))
  | some thumb => .ok thumb

def matchesThumbprint (cert : X509) (thumb : SHA256Thumbprint) :
    Native Bool := do
  let myThumb ← cert.thumbprint
  if myThumb.length ≠ thumb.bytes.length then
    return false
  return thumb.bytes == myThumb

end X509

section Verification

variable (url : String)

/-- The body of the inner loop: one certificate, which may have failed to
load, against one pin. -/
def judgePin (cert : Option X509) (validCert : CertInfo) :
    Verdict NativeException :=
  match cert with
  | none => .proceed
  | some cert =>
      match cert.matchesThumbprint validCert.thumbprint with
      | .error exception => .abort exception
      | .ok false => .proceed
      | .ok true =>
          match cert.commonName with
          | .error exception => .abort exception
          | .ok certName =>
              if certName ≠ validCert.commonName then
                .abort (.exception
                  ("Certificate common name does not match, expected '" ++
                    validCert.commonName ++ "' but got '" ++ certName ++ "'"))
              else if validCert.allowedDnsNamespace == "" then
                .accept
              else if contains url validCert.allowedDnsNamespace then
                .accept
              else
                .proceed

/-- `Curl::VerifyIntermediateCertificate`, on the chain which libcurl reports. -/
def verifyIntermediateCertificate (sslCerts : List CertInfo)
    (chain : List (Option X509)) : Native Unit :=
  match scan (fun cert => scan (judgePin url cert) sslCerts) chain with
  | .accept => .ok ()
  | .abort exception => .error exception
  | .proceed => .error (.exception
      "None of the candidate certificates were found in certificate chain.")

end Verification

end SoftwareEntitlement
