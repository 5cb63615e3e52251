/-
Decimal digits, and texts that are joined and split.

Numbers in addresses and in JSON are read digit by digit up to the first character that is
none, so what matters about digits is what they are not.  Lists of names are joined with a
separator, and come back if none of them has it.  What a text ends in, its last part ends in.

Letters and digits are ASCII characters here, so a fact about all of them is one about the first
hundred and twenty-eight characters, and found by looking at each.
-/
import ParameterManager.Text.Split

namespace ParameterManager.Text

theorem isDigit_of_mem_digits {n : Nat} {c : Char} (h : c ∈ Nat.toDigits 10 n) :
    c.isDigit = true := Nat.isDigit_of_mem_toDigits (by decide) (by decide) h

theorem ne_of_isDigit {c d : Char} (h : c.isDigit = true) (hd : d.isDigit = false) : c ≠ d := by
  rintro rfl
  rw [h] at hd
  simp at hd

/-! ### ASCII characters -/

variable {c : Char}

theorem forall_ascii {p : Char → Prop} (h : ∀ n : Fin 128, p (Char.ofNat n.val))
    (hc : c.toNat < 128) : p c := by
  have hn := h ⟨c.toNat, hc⟩
  rwa [Char.ofNat_toNat] at hn

theorem ascii_of_isLower (h : c.isLower = true) : c.toNat < 128 := by
  have hle : c.val ≤ 'z'.val := of_decide_eq_true (Bool.and_eq_true_iff.mp h).2
  have hz : c.val.toNat ≤ 122 := hle
  exact Nat.lt_of_le_of_lt hz (by decide)

theorem ascii_of_isUpper (h : c.isUpper = true) : c.toNat < 128 := by
  have hle : c.val ≤ 'Z'.val := (of_decide_eq_true h).2
  have hz : c.val.toNat ≤ 90 := hle
  exact Nat.lt_of_le_of_lt hz (by decide)

theorem ascii_of_isDigit (h : c.isDigit = true) : c.toNat < 128 := by
  have hnine : '9'.toNat = 57 := rfl
  have := Char.isDigit_iff_toNat.mp h
  omega

/-! ### Lists -/

/-- Texts without the separator come back when they are joined and split again. -/
theorem split_join {separator : Char} {parts : List String} (hne : parts ≠ [])
    (h : ∀ s ∈ parts, separator ∉ s.toList) : split separator (join separator parts) = parts := by
  have hid : String.ofList ∘ String.toList = id := funext fun _ => String.ofList_toList
  rw [split, join, String.toList_ofList, List.splitOn_intercalate _ ?_ (by simpa using hne),
    List.map_map]
  · rw [hid, List.map_id]
  · intro cs hcs
    obtain ⟨s, hs, rfl⟩ := List.mem_map.mp hcs
    exact h s hs

/-- What ends in something else than the separator has a last part that ends so. -/
theorem splitOn_concat {α : Type} [DecidableEq α] {separator a : α} (h : a ≠ separator)
    (as : List α) :
    ∃ front last, (as ++ [a]).splitOn separator = front ++ [last ++ [a]] := by
  by_cases hmem : separator ∈ as
  · obtain ⟨before, after, has, hbefore⟩ := List.eq_append_cons_of_mem hmem
    have hshorter : after.length < as.length := by
      rw [has, List.length_append, List.length_cons]
      omega
    obtain ⟨front, last, hparts⟩ := splitOn_concat h after
    refine ⟨before :: front, last, ?_⟩
    rw [has, List.append_assoc, List.cons_append, List.splitOn_append_cons_self_of_not_mem hbefore,
      hparts, List.cons_append]
  · have hnone : separator ∉ as ++ [a] := by simp [hmem, Ne.symm h]
    exact ⟨[], as, List.splitOn_eq_singleton hnone⟩
termination_by as.length

end ParameterManager.Text
