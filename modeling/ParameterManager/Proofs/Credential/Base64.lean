/-
Base 64 comes back.

Between bytes and text there are the values of the digits.  Values are told apart by their
digits, in both alphabets, and the values of a group give its bytes back, since the bits
that fill up a last group are zero.  Where short groups are not padded, a text has no other
characters than digits.
-/
import Mathlib.Data.List.Basic
import ParameterManager.Credential.Base64

namespace ParameterManager.Base64

/-! ### Values -/

/-- The values of the digits that bytes are written with. -/
def values : Bytes → List Nat
  | x :: y :: z :: rest =>
    let n := (x.toNat * 256 + y.toNat) * 256 + z.toNat
    n / 262144 :: n / 4096 % 64 :: n / 64 % 64 :: n % 64 :: values rest
  | [x, y] =>
    let n := (x.toNat * 256 + y.toNat) * 4
    [n / 4096, n / 64 % 64, n % 64]
  | [x] =>
    let n := x.toNat * 16
    [n / 64, n % 64]
  | [] => []

theorem values_lt {bs : Bytes} {v : Nat} (h : v ∈ values bs) : v < 64 := by
  fun_induction values bs with
  | case1 x y z rest n ih =>
      have hx := x.toNat_lt
      have hy := y.toNat_lt
      have hz := z.toNat_lt
      simp only [List.mem_cons] at h
      rcases h with rfl | rfl | rfl | rfl | h
      · omega
      · omega
      · omega
      · omega
      · exact ih h
  | case2 x y n =>
      have hx := x.toNat_lt
      have hy := y.toNat_lt
      simp only [List.mem_cons, List.not_mem_nil, or_false] at h
      omega
  | case3 x n =>
      have hx := x.toNat_lt
      simp only [List.mem_cons, List.not_mem_nil, or_false] at h
      omega
  | case4 => exact absurd h List.not_mem_nil

theorem length_values (bs : Bytes) : (values bs).length = (4 * bs.length + 2) / 3 := by
  fun_induction values bs with
  | case1 x y z rest n ih =>
      simp only [List.length_cons, ih]
      omega
  | case2 x y n => simp
  | case3 x n => simp
  | case4 => rfl

/-- The byte of a number that is a byte. -/
private theorem ofNat_eq {n : Nat} {b : UInt8} (h : n = b.toNat) : UInt8.ofNat n = b := by
  rw [h, UInt8.ofNat_toNat]

namespace Alphabet

/-- **The values of bytes give the bytes back.** -/
theorem decodeDigits_values (bs : Bytes) : decodeDigits (values bs) = some bs := by
  fun_induction values bs with
  | case1 x y z rest n ih =>
      have hx := x.toNat_lt
      have hy := y.toNat_lt
      have hz := z.toNat_lt
      have hn : ((n / 262144 * 64 + n / 4096 % 64) * 64 + n / 64 % 64) * 64 + n % 64 = n := by omega
      have hfirst : UInt8.ofNat (n / 65536) = x := ofNat_eq (by omega)
      have hsecond : UInt8.ofNat (n / 256 % 256) = y := ofNat_eq (by omega)
      have hthird : UInt8.ofNat (n % 256) = z := ofNat_eq (by omega)
      simp only [decodeDigits, hn, ih, hfirst, hsecond, hthird]
      rfl
  | case2 x y n =>
      have hx := x.toNat_lt
      have hy := y.toNat_lt
      have hn : (n / 4096 * 64 + n / 64 % 64) * 64 + n % 64 = n := by omega
      have hfilled : n % 4 = 0 := by omega
      have hfirst : UInt8.ofNat (n / 1024) = x := ofNat_eq (by omega)
      have hsecond : UInt8.ofNat (n / 4 % 256) = y := ofNat_eq (by omega)
      simp only [decodeDigits, hn, if_pos hfilled, hfirst, hsecond]
  | case3 x n =>
      have hx := x.toNat_lt
      have hn : n / 64 * 64 + n % 64 = n := by omega
      have hfilled : n % 16 = 0 := by omega
      have hfirst : UInt8.ofNat (n / 16) = x := ofNat_eq (by omega)
      simp only [decodeDigits, hn, if_pos hfilled, hfirst]
  | case4 => rfl

/-! ### Digits -/

/-- An alphabet tells its digits apart, from each other and from padding. -/
def IsFaithful (a : Alphabet) : Prop := ∀ v < 64, a.value? (a.digit v) = some v ∧ a.digit v ≠ '='

theorem isFaithful_urlSafe : urlSafe.IsFaithful := by
  unfold IsFaithful
  decide

variable {a : Alphabet}

/-- How many digits a last group lacks. -/
private def lacking (n : Nat) : Nat := (4 - n % 4) % 4

/-- Bytes are written as their values are, with padding after them. -/
theorem encode_eq (a : Alphabet) (bs : Bytes) :
    a.encode bs = (values bs).map a.digit ++ a.padding (lacking (values bs).length) := by
  fun_induction values bs with
  | case1 x y z rest n ih =>
      have hlacking : lacking ((values rest).length + 1 + 1 + 1 + 1)
          = lacking (values rest).length := by
        unfold lacking
        omega
      simp only [encode, ih, List.map_cons, List.cons_append, List.length_cons, hlacking, n]
  | case2 x y n => rfl
  | case3 x n => rfl
  | case4 =>
      have hnone : a.padding 0 = [] := by
        unfold padding
        split
        · rfl
        · rfl
      exact hnone.symm

theorem mapM_value? (ha : a.IsFaithful) {vs : List Nat} (h : ∀ v ∈ vs, v < 64) :
    (vs.map a.digit).mapM a.value? = some vs := by
  induction vs with
  | nil => rfl
  | cons v vs ih =>
      rw [List.map_cons, List.mapM_cons, (ha v (h v List.mem_cons_self)).1,
        ih fun w hw => h w (List.mem_cons_of_mem v hw)]
      rfl

private theorem takeWhile_padding (a : Alphabet) (n : Nat) :
    (a.padding n).takeWhile (· ≠ '=') = [] := by
  unfold padding
  split
  · cases n with
    | zero => rfl
    | succ n => simp [List.replicate_succ]
  · rfl

/-- **What is written in base 64 is read back.** -/
theorem decode_encode (ha : a.IsFaithful) (bs : Bytes) : a.decode (a.encode bs) = some bs := by
  have hdigits : ∀ c ∈ (values bs).map a.digit, decide (c ≠ '=') = true := by
    intro c hc
    obtain ⟨v, hv, rfl⟩ := List.mem_map.mp hc
    exact decide_eq_true (ha v (values_lt hv)).2
  have hbody : (a.encode bs).takeWhile (· ≠ '=') = (values bs).map a.digit := by
    rw [encode_eq, List.takeWhile_append_of_pos hdigits, takeWhile_padding, List.append_nil]
  have hafter : (a.encode bs).drop ((values bs).map a.digit).length
      = a.padding ((4 - ((values bs).map a.digit).length % 4) % 4) := by
    rw [encode_eq, List.drop_left, List.length_map]
    rfl
  have hvalues : ((values bs).map a.digit).mapM a.value? = some (values bs) :=
    mapM_value? ha fun v => values_lt
  simp only [decode, hbody, hvalues, Option.bind_eq_bind, Option.bind_some]
  rw [if_pos hafter, decodeDigits_values]

end Alphabet

/-! ### Texts for addresses -/

theorem encode_urlSafe (bs : Bytes) : urlSafe.encode bs = (values bs).map urlSafe.digit := by
  have hnone : ∀ n, urlSafe.padding n = [] := fun _ => rfl
  rw [Alphabet.encode_eq, hnone, List.append_nil]

theorem length_encode_urlSafe (bs : Bytes) :
    (urlSafe.encode bs).length = (4 * bs.length + 2) / 3 := by
  rw [encode_urlSafe, List.length_map, length_values]

theorem exists_digit {bs : Bytes} {c : Char} (h : c ∈ urlSafe.encode bs) :
    ∃ v < 64, urlSafe.digit v = c := by
  rw [encode_urlSafe] at h
  obtain ⟨v, hv, hc⟩ := List.mem_map.mp h
  exact ⟨v, values_lt hv, hc⟩

/-- A text for addresses has none but digits: letters, decimal digits, hyphens and low lines. -/
theorem mem_encode_urlSafe {bs : Bytes} {c : Char} (h : c ∈ urlSafe.encode bs) :
    c.isAlphanum = true ∨ c = '-' ∨ c = '_' := by
  have hall : ∀ v < 64, (urlSafe.digit v).isAlphanum = true ∨ urlSafe.digit v = '-' ∨
      urlSafe.digit v = '_' := by decide
  obtain ⟨v, hv, rfl⟩ := exists_digit h
  exact hall v hv

end ParameterManager.Base64
