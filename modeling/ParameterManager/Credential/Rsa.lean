/-
Private keys and signatures.

A key comes as the text of a file: bytes in base 64 between two lines that say what they
are.  The bytes are the numbers of the key, or a frame around them that names the
algorithm.  A key is taken only if its numbers belong together.

A signature is the power of a number that has the digest of the message in its last
bytes and a fixed filling before it.
-/
import ParameterManager.Credential.Base64
import ParameterManager.Credential.Der
import ParameterManager.Credential.Sha256
import ParameterManager.Text.Blank

namespace ParameterManager.Rsa

/-! ### Keys -/

/-- The public part of a key. -/
structure PublicKey where
  modulus : Nat
  exponent : Nat
  deriving DecidableEq, Repr

structure PrivateKey extends PublicKey where
  secret : Nat
  primes : List Nat
  deriving DecidableEq, Repr

/-- The greatest size of a modulus, in bits. -/
def maxBits : Nat := 4096

/-- Whether the numbers of a key belong together. -/
def PrivateKey.isConsistent (k : PrivateKey) : Bool :=
  2 ≤ k.exponent && k.exponent < Nat.pow 2 33 && k.modulus < Nat.pow 2 maxBits &&
    k.primes.all (1 < ·) && k.primes.foldl (· * ·) 1 == k.modulus &&
    k.primes.all fun p => k.secret * k.exponent % (p - 1) == 1 % (p - 1)

/-- The key that a sequence of nine numbers stands for. -/
def ofPkcs1? (bs : Bytes) : Option PrivateKey := do
  match ← (← Der.sequence? bs).mapM Der.Item.natural? with
  | [0, n, e, d, p, q, _, _, _] =>
    let k : PrivateKey := { modulus := n, exponent := e, secret := d, primes := [p, q] }
    if k.isConsistent then some k else none
  | _ => none

/-- The identifier of the algorithm. -/
def algorithm : Bytes := [0x2A, 0x86, 0x48, 0x86, 0xF7, 0x0D, 0x01, 0x01, 0x01]

/-- The key in a frame that names the algorithm. -/
def ofPkcs8? (bs : Bytes) : Option PrivateKey := do
  match ← Der.sequence? bs with
  | version :: frame :: key :: _ =>
    let v ← version.natural?
    let named ← Der.items? frame.content
    if v ≤ 1 ∧ frame.tag = Der.tagSequence ∧ key.tag = Der.tagBytes ∧
        named = [⟨Der.tagObject, algorithm⟩, ⟨Der.tagNull, []⟩] then
      ofPkcs1? key.content
    else none
  | _ => none

/-! ### Texts of keys -/

/-- A text in lines; a line ends with a line feed, a carriage return or both. -/
def lines : List Char → List (List Char)
  | [] => [[]]
  | '\r' :: '\n' :: rest => [] :: lines rest
  | c :: rest =>
    if c = '\n' ∨ c = '\r' then [] :: lines rest
    else match lines rest with
      | line :: more => (c :: line) :: more
      | [] => [[c]]

/-- The number of digits in each line but the last. -/
def lineWidth : Nat := 64

/-- The digits of lines that all have the same width, the last one at most that. -/
def unwrap? : List (List Char) → Option (List Char)
  | [] => none
  | [last] => if last.length ≤ lineWidth ∧ last ≠ [] then some last else none
  | line :: rest => if line.length = lineWidth then (unwrap? rest).map (line ++ ·) else none

/-- The bytes of a text whose first and last line name it; lines before the first one are
no part of it. -/
def pem? (label : String) (text : List Char) : Option Bytes :=
  let start := "-----BEGIN ".toList
  match (lines text).dropWhile fun line => !start.isPrefixOf line with
  | [] => none
  | first :: rest =>
    if first = start ++ label.toList ++ "-----".toList ∧
        rest.getLast? = some ("-----END ".toList ++ label.toList ++ "-----".toList) then do
      let digits ← unwrap? rest.dropLast
      Base64.standard.decode digits
    else none

/-- The key that a text stands for. -/
def ofPem? (text : String) : Option PrivateKey :=
  let cs := (Text.trim text).toList
  ((pem? "PRIVATE KEY" cs).bind ofPkcs8?) <|> ((pem? "RSA PRIVATE KEY" cs).bind ofPkcs1?)

/-! ### Signatures -/

/-- A power, all products being reduced by a modulus. -/
def powMod (base exponent modulus : Nat) : Nat :=
  if exponent = 0 then 1 % modulus
  else
    let half := powMod (base * base % modulus) (exponent / 2) modulus
    if exponent % 2 = 1 then half * base % modulus else half
termination_by exponent
decreasing_by omega

/-- How many bytes a number takes. -/
def byteLength (n : Nat) : Nat := (Nat.toDigits 2 n).length / 8 + if (Nat.toDigits 2 n).length % 8 = 0 then 0 else 1

/-- What stands before the digest: that it is one, and of which kind. -/
def digestHeader : Bytes :=
  [0x30, 0x31, 0x30, 0x0D, 0x06, 0x09, 0x60, 0x86, 0x48, 0x01, 0x65, 0x03, 0x04, 0x02, 0x01, 0x05,
    0x00, 0x04, 0x20]

/-- The filled block of a message, of the size of a modulus; none if it does not fit. -/
def filled? (size : Nat) (message : Bytes) : Option Bytes :=
  let tail := digestHeader ++ Sha256.digest message
  if size < tail.length + 11 then none
  else some ([0x00, 0x01] ++ List.replicate (size - tail.length - 3) 0xFF ++ [0x00] ++ tail)

def sign? (k : PrivateKey) (message : Bytes) : Option Bytes := do
  let size := byteLength k.modulus
  let block ← filled? size message
  some (Sha256.bigEndian size (powMod (Der.toNat block) k.secret k.modulus))

def verify (k : PublicKey) (message signature : Bytes) : Bool :=
  let size := byteLength k.modulus
  match filled? size message with
  | some block =>
    signature.length == size && powMod (Der.toNat signature) k.exponent k.modulus == Der.toNat block
  | none => false

end ParameterManager.Rsa
