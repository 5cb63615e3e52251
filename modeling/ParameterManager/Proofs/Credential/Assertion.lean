/-
What an assertion says.

An account whose key can sign at all has an assertion at any time, since what is signed is
always of the same length.  An assertion is three texts for addresses with full stops between
them, and none of the three has one of its own.  So the three are told apart again, and the
first two are read back as what was written: whatever the names of the key and of the account
are, nothing in them ends a part.
-/
import ParameterManager.Proofs.Credential
import ParameterManager.Proofs.Credential.Base64
import ParameterManager.Proofs.Json.Written
import ParameterManager.Url.Form

namespace ParameterManager

/-! ### Lengths -/

namespace Sha256

theorem length_bigEndian (k n : Nat) : (bigEndian k n).length = k := by
  induction k generalizing n with
  | zero => rfl
  | succ k ih => rw [bigEndian, List.length_append, ih, List.length_singleton]

theorem length_digest (message : Bytes) : (digest message).length = 32 := by
  unfold digest
  generalize blocks initial (words (pad message)) = s
  simp only [List.flatMap_cons, List.flatMap_nil, List.length_append, length_bigEndian,
    List.length_nil]

end Sha256

namespace Rsa

/-- How many bytes the shortest filled block has. -/
def minBlock : Nat := 62

private theorem length_tail (message : Bytes) :
    (digestHeader ++ Sha256.digest message).length + 11 = minBlock := by
  rw [List.length_append, Sha256.length_digest]
  rfl

/-- A key signs everything or nothing: what counts is the size of its modulus. -/
theorem sign?_isSome {k : PrivateKey} {message : Bytes} :
    (sign? k message).isSome = true ↔ minBlock ≤ byteLength k.modulus := by
  unfold sign? filled?
  simp only [length_tail]
  by_cases hsize : byteLength k.modulus < minBlock
  · simp [if_pos hsize, Nat.not_le.mpr hsize]
  · simp [if_neg hsize, Nat.not_lt.mp hsize]

/-- A signature has as many bytes as the modulus. -/
theorem length_sign? {k : PrivateKey} {message signature : Bytes}
    (h : sign? k message = some signature) : signature.length = byteLength k.modulus := by
  unfold sign? at h
  cases hblock : filled? (byteLength k.modulus) message with
  | none => simp [hblock] at h
  | some block =>
      simp only [hblock, Option.bind_eq_bind, Option.bind_some, Option.some.injEq] at h
      rw [← h, Sha256.length_bigEndian]

end Rsa

/-- An account can sign at any time if it has a key that can sign. -/
theorem ServiceAccount.canSign_of_size {a : ServiceAccount} {key : Rsa.PrivateKey}
    (hkey : Rsa.ofPem? a.privateKey = some key) (hsize : Rsa.minBlock ≤ Rsa.byteLength key.modulus)
    (now : Nat) : a.CanSign now := by
  obtain ⟨signature, hsign⟩ := Option.isSome_iff_exists.mp (Rsa.sign?_isSome.mpr hsize)
  exact ⟨key, signature, hkey, hsign⟩

namespace Assertion

variable {a : ServiceAccount} {now : Nat} {assertion : String}

/-! ### Parts -/

/-- What the three parts of an assertion are. -/
structure IsMadeOf (a : ServiceAccount) (now : Nat) (assertion : String) (signature : Bytes) :
    Prop where
  signed : ∃ key, Rsa.ofPem? a.privateKey = some key ∧
    Rsa.sign? key (Utf8.encodeChars (signed a now)) = some signature
  chars : assertion.toList
    = ['.'].intercalate [part (header a), part (claims a now), Base64.urlSafe.encode signature]

theorem create_eq_ok (h : create a now = .ok assertion) :
    ∃ signature, IsMadeOf a now assertion signature := by
  unfold create at h
  split at h
  · simp at h
  · next key hkey =>
    simp only at h
    split at h
    · simp at h
    · next signature hsign =>
      refine ⟨signature, ⟨key, hkey, hsign⟩, ?_⟩
      rw [← Except.ok.inj h, String.toList_ofList, signed]
      simp [List.intercalate]

/-- No part has a full stop in it. -/
private theorem stop_not_mem (bs : Bytes) : '.' ∉ Base64.urlSafe.encode bs := by
  intro h
  rcases Base64.mem_encode_urlSafe h with h | h | h
  · exact absurd h (by decide)
  · exact absurd h (by decide)
  · exact absurd h (by decide)

/-- **An assertion has exactly three parts.** -/
theorem IsMadeOf.splitOn {signature : Bytes} (h : IsMadeOf a now assertion signature) :
    assertion.toList.splitOn '.'
      = [part (header a), part (claims a now), Base64.urlSafe.encode signature] := by
  rw [h.chars]
  refine List.splitOn_intercalate _ ?_ (List.cons_ne_nil _ _)
  intro cs hcs
  simp only [List.mem_cons, List.not_mem_nil, or_false] at hcs
  rcases hcs with hcs | hcs | hcs
  · rw [hcs]
    exact stop_not_mem (Utf8.encode (header a).compact)
  · rw [hcs]
    exact stop_not_mem (Utf8.encode (claims a now).compact)
  · rw [hcs]
    exact stop_not_mem signature

/-- A text is exactly three texts for addresses with full stops between them. -/
def HasThreeParts (assertion : String) : Prop :=
  ∃ h c s, assertion.toList.splitOn '.' = [h, c, s] ∧
    ∀ cs ∈ [h, c, s], ∀ ch ∈ cs, ch.isAlphanum = true ∨ ch = '-' ∨ ch = '_'

theorem IsMadeOf.hasThreeParts {signature : Bytes} (h : IsMadeOf a now assertion signature) :
    HasThreeParts assertion := by
  refine ⟨_, _, _, h.splitOn, ?_⟩
  simp only [List.forall_mem_cons, List.not_mem_nil, false_imp_iff, implies_true, and_true]
  exact ⟨fun _ => Base64.mem_encode_urlSafe, fun _ => Base64.mem_encode_urlSafe,
    fun _ => Base64.mem_encode_urlSafe⟩

theorem IsMadeOf.length_split {signature : Bytes} (h : IsMadeOf a now assertion signature) :
    (Text.split '.' assertion).length = 3 := by
  rw [Text.split, List.length_map, h.splitOn]
  rfl

/-- Every character of an assertion stands for itself in a form. -/
theorem IsMadeOf.isPlain {signature : Bytes} (h : IsMadeOf a now assertion signature) {c : Char}
    (hc : c ∈ assertion.toList) : c.toNat < 0x80 ∧ Form.isPlain c.toNat = true := by
  have hall : ∀ v < 64, (Base64.urlSafe.digit v).toNat < 0x80 ∧
      Form.isPlain (Base64.urlSafe.digit v).toNat = true := by decide
  have hdigit : ∀ bs, c ∈ Base64.urlSafe.encode bs →
      c.toNat < 0x80 ∧ Form.isPlain c.toNat = true := by
    intro bs hbs
    obtain ⟨v, hv, rfl⟩ := Base64.exists_digit hbs
    exact hall v hv
  rw [h.chars] at hc
  simp only [List.intercalate, List.intersperse, List.flatten_cons, List.flatten_nil,
    List.mem_append, List.mem_singleton, List.not_mem_nil, or_false] at hc
  rcases hc with hc | rfl | hc | rfl | hc
  · exact hdigit (Utf8.encode (header a).compact) hc
  · decide
  · exact hdigit (Utf8.encode (claims a now).compact) hc
  · decide
  · exact hdigit signature hc

/-- An assertion is as long as its parts and two full stops. -/
theorem IsMadeOf.length {signature : Bytes} (h : IsMadeOf a now assertion signature) :
    assertion.toList.length = (part (header a)).length + (part (claims a now)).length +
      (4 * signature.length + 2) / 3 + 2 := by
  rw [h.chars, ← Base64.length_encode_urlSafe]
  simp only [List.intercalate, List.intersperse, List.flatten_cons, List.flatten_nil,
    List.length_append, List.length_singleton, List.length_nil]
  omega

/-! ### Reading back -/

private theorem partValue?_part {members : List (String × Json)}
    (h : ∀ m ∈ members, Json.Writable m.2 ∧
      Json.ReadsValue (Json.readValue 126) m.2 (Json.ordered m.2)) :
    partValue? (part (.object members)) = some (Json.ordered (.object members)) := by
  have hwritable : Json.Writable (.object members) := .object fun m hm => (h m hm).1
  have hread := Json.Wire.any_ofBytes (Json.Wire.readsValue_object fun m hm => (h m hm).2)
    hwritable.spells_compact
  rw [partValue?, part, Base64.Alphabet.decode_encode Base64.Alphabet.isFaithful_urlSafe]
  simp only [Option.bind_eq_bind, Option.bind_some]
  rw [hread]
  rfl

private theorem writable_string (s : String) : Json.Writable (.string s) ∧
    Json.ReadsValue (Json.readValue 126) (.string s) (Json.ordered (.string s)) :=
  ⟨.string s, Json.Wire.readsValue_string 126 s⟩

private theorem writable_count {n : Nat} (h : n ≤ Json.maxSignificand) :
    Json.Writable (.ofNat n) ∧
      Json.ReadsValue (Json.readValue 126) (.ofNat n) (Json.ordered (.ofNat n)) :=
  ⟨.count h, Json.Wire.readsValue_count 126 n⟩

private theorem partValue?_header (a : ServiceAccount) :
    partValue? (part (header a)) = some (Json.ordered (header a)) := by
  refine partValue?_part ?_
  simp only [List.forall_mem_cons, List.not_mem_nil, false_imp_iff, implies_true, and_true]
  exact ⟨writable_string _, writable_string _, writable_string _⟩

private theorem partValue?_claims (a : ServiceAccount) (hclock : now + lifetime < 2 ^ 64) :
    partValue? (part (claims a now)) = some (Json.ordered (claims a now)) := by
  have hmax : Json.maxSignificand + 1 = 2 ^ 64 := by decide
  refine partValue?_part ?_
  simp only [List.forall_mem_cons, List.not_mem_nil, false_imp_iff, implies_true, and_true]
  exact ⟨writable_count (by omega), writable_count (by omega), writable_count (by omega),
    writable_string _, writable_string _, writable_string _⟩

/-- **What is read off an assertion is what was written.** -/
theorem IsMadeOf.read? {signature : Bytes} (h : IsMadeOf a now assertion signature)
    (hclock : now + lifetime < 2 ^ 64) :
    read? assertion = some
      { header := Json.ordered (header a), claims := Json.ordered (claims a now), signature
        signedBytes := Utf8.encodeChars (Assertion.signed a now) } := by
  unfold Assertion.read?
  simp only [h.splitOn, partValue?_header, partValue?_claims a hclock,
    Base64.Alphabet.decode_encode Base64.Alphabet.isFaithful_urlSafe, Option.bind_eq_bind,
    Option.bind_some, Assertion.signed]

/-! ### What is said -/

/-- What is said is what an account wants a token for: it says how and with which key it is
signed, whom it is for and whom it is from, what the token is for, and that it holds from now on
for an hour. -/
structure Vouches (a : ServiceAccount) (now : Nat) (p : Parts) : Prop where
  algorithm : p.header.member? "alg" = some (.string "RS256")
  key : p.header.member? "kid" = some (.string a.privateKeyId)
  audience : p.claims.member? "aud" = some (.string a.tokenUri)
  issuer : p.claims.member? "iss" = some (.string a.clientEmail)
  scope : p.claims.member? "scope"
    = some (.string "https://www.googleapis.com/auth/cloud-platform")
  issued : p.claims.member? "iat" = some (.ofNat now)
  expires : p.claims.member? "exp" = some (.ofNat (now + 3600))
  notBefore : p.claims.member? "nbf" = some (.ofNat now)

private theorem member?_header {name s : String}
    (h : (name, Json.string s) ∈ [("alg", Json.string "RS256"), ("typ", .string "JWT"),
      ("kid", .string a.privateKeyId)]) :
    (Json.ordered (header a)).member? name = some (.string s) :=
  Json.Wire.member?_ordered h (by
    show ["alg", "typ", "kid"].Nodup
    decide)

private theorem member?_claims {name : String} {value : Json} (hvalue : Json.ordered value = value)
    (h : (name, value) ∈ [("iat", .ofNat now), ("exp", .ofNat (now + lifetime)),
      ("nbf", .ofNat now), ("aud", .string a.tokenUri), ("iss", .string a.clientEmail),
      ("scope", .string Assertion.scope)]) :
    (Json.ordered (claims a now)).member? name = some value := by
  rw [← hvalue]
  refine Json.Wire.member?_ordered h ?_
  show ["iat", "exp", "nbf", "aud", "iss", "scope"].Nodup
  decide

/-- **An assertion vouches for its account.** -/
theorem vouches_ordered (a : ServiceAccount) (now : Nat) (signature signedBytes : Bytes) :
    Vouches a now ⟨Json.ordered (header a), Json.ordered (claims a now), signature, signedBytes⟩
      where
  algorithm := member?_header (by simp)
  key := member?_header (by simp)
  audience := member?_claims rfl (by simp)
  issuer := member?_claims rfl (by simp)
  scope := member?_claims rfl (by simp [Assertion.scope])
  issued := member?_claims rfl (by simp)
  expires := member?_claims rfl (by simp [lifetime])
  notBefore := member?_claims rfl (by simp)

end Assertion

end ParameterManager
