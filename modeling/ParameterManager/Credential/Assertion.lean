/-
Signed assertions.

An assertion says on whose behalf an access token is wanted, from whom, and for how
long.  It has three parts with full stops between them: how it is signed, what it says,
and the signature of the first two.
-/
import ParameterManager.Credential.Rsa
import ParameterManager.Credential.ServiceAccount

namespace ParameterManager.Assertion

/-- What an access token is asked for. -/
def scope : String := "https://www.googleapis.com/auth/cloud-platform"

/-- For how many seconds an assertion holds. -/
def lifetime : Nat := 3600

/-- How the assertion of an account is signed. -/
def header (a : ServiceAccount) : Json :=
  .object [("alg", .string "RS256"), ("typ", .string "JWT"), ("kid", .string a.privateKeyId)]

/-- What the assertion of an account says at a time. -/
def claims (a : ServiceAccount) (now : Nat) : Json :=
  .object [("iat", .ofNat now), ("exp", .ofNat (now + lifetime)), ("nbf", .ofNat now),
    ("aud", .string a.tokenUri), ("iss", .string a.clientEmail), ("scope", .string scope)]

/-- A value as one part of an assertion. -/
def part (j : Json) : List Char := Base64.urlSafe.encode (Utf8.encode j.compact)

def signed (a : ServiceAccount) (now : Nat) : List Char :=
  part (header a) ++ '.' :: part (claims a now)

/-- The fault of a key that cannot be used. -/
def invalidKey : ClientError := .jwt "Invalid private key"

/-- The assertion of an account at a time. -/
def create (a : ServiceAccount) (now : Nat) : ClientResult String :=
  match Rsa.ofPem? a.privateKey with
  | none => .error invalidKey
  | some key =>
    let body := signed a now
    match Rsa.sign? key (Utf8.encodeChars body) with
    | none => .error invalidKey
    | some signature =>
      .ok (String.ofList (body ++ '.' :: Base64.urlSafe.encode signature))

/-! ### Reading back -/

/-- The parts of an assertion, read back. -/
structure Parts where
  header : Json
  claims : Json
  signature : Bytes
  signedBytes : Bytes

/-- The value that one part of an assertion stands for. -/
def partValue? (cs : List Char) : Option Json := do
  let bs ← Base64.urlSafe.decode cs
  (Json.Wire.any.ofBytes bs).toOption

/-- The parts of a text of three parts. -/
def read? (s : String) : Option Parts := do
  match s.toList.splitOn '.' with
  | [h, c, sig] =>
    let header ← partValue? h
    let claims ← partValue? c
    let signature ← Base64.urlSafe.decode sig
    some { header, claims, signature, signedBytes := Utf8.encodeChars (h ++ '.' :: c) }
  | _ => none

def Parts.isSignedBy (p : Parts) (k : Rsa.PublicKey) : Bool :=
  Rsa.verify k p.signedBytes p.signature

end ParameterManager.Assertion
