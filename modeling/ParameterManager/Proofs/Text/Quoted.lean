/-
Quoted text can be read back.

A character that is escaped starts with a backslash, what follows says how far it goes, and no
character starts with the quotation mark that ends the text.  So the text that is quoted at the
start of a longer one is known, and so is what follows it.
-/
import ParameterManager.Text.Quoted

namespace ParameterManager.Text

/-! ### Numbers in base sixteen -/

/-- The number that a digit stands for. -/
def digitValue (c : Char) : Nat := "0123456789abcdef".toList.idxOf c

/-- The number that digits in base sixteen stand for. -/
def hexNumber (cs : List Char) : Nat := cs.foldl (fun n c => n * 16 + digitValue c) 0

theorem hexNumber_append (cs : List Char) (c : Char) :
    hexNumber (cs ++ [c]) = hexNumber cs * 16 + digitValue c := by
  rw [hexNumber, List.foldl_append]
  rfl

private theorem digitValue_digitChar : ∀ d < 16, digitValue (Nat.digitChar d) = d := by decide

private theorem digitChar_ne_brace : ∀ d < 16, Nat.digitChar d ≠ '}' := by decide

/-- A number is read back, and its digits end before a closing brace. -/
private theorem hexDigits_spec (n : Nat) : hexNumber (hexDigits n) = n ∧ '}' ∉ hexDigits n := by
  unfold hexDigits
  induction n using Nat.strongRecOn with
  | ind n ih =>
      by_cases hn : n < 16
      · rw [Nat.toDigits_of_lt_base hn]
        refine ⟨?_, ?_⟩
        · have hvalue := hexNumber_append [] (Nat.digitChar n)
          rw [digitValue_digitChar n hn] at hvalue
          simpa [hexNumber] using hvalue
        · exact fun h => digitChar_ne_brace n hn (List.mem_singleton.mp h).symm
      · obtain ⟨hnumber, hbrace⟩ := ih (n / 16) (by omega)
        have hdigit : n % 16 < 16 := Nat.mod_lt n (by decide)
        rw [Nat.toDigits_of_base_le (by decide) (Nat.le_of_not_lt hn)]
        refine ⟨?_, ?_⟩
        · rw [hexNumber_append, hnumber, digitValue_digitChar _ hdigit]
          omega
        · rw [List.mem_append, List.mem_singleton, not_or]
          exact ⟨hbrace, (digitChar_ne_brace _ hdigit).symm⟩

/-! ### Characters -/

/-- The character that a quoted text starts with, and the text after it. -/
def readChar : List Char → Option (Char × List Char)
  | '\\' :: 'u' :: '{' :: rest =>
    let digits := rest.takeWhile (· ≠ '}')
    some (Char.ofNat (hexNumber digits), rest.drop (digits.length + 1))
  | '\\' :: 'n' :: rest => some ('\n', rest)
  | '\\' :: 'r' :: rest => some ('\r', rest)
  | '\\' :: 't' :: rest => some ('\t', rest)
  | '\\' :: '0' :: rest => some (Char.ofNat 0, rest)
  | '\\' :: c :: rest => some (c, rest)
  | c :: rest => some (c, rest)
  | [] => none

/-- **A quoted character is read back**, whatever follows it. -/
theorem readChar_quotedChar (c : Char) (rest : List Char) :
    readChar (quotedChar c ++ rest) = some (c, rest) := by
  unfold quotedChar
  split
  · next h => subst h; rfl
  split
  · next h => subst h; rfl
  split
  · next h => subst h; rfl
  split
  · next h => subst h; rfl
  split
  · next h => subst h; rfl
  split
  · next h =>
    have hc : c = Char.ofNat 0 := by rw [← h, Char.ofNat_toNat]
    subst hc
    rfl
  split
  · -- a character that is shown bare is no backslash
    rw [List.singleton_append]
    simp [readChar, *]
  · obtain ⟨hnumber, hbrace⟩ := hexDigits_spec c.toNat
    have hdigits : (hexDigits c.toNat ++ '}' :: rest).takeWhile (· ≠ '}') = hexDigits c.toNat := by
      rw [List.takeWhile_append_of_pos fun d hd => decide_eq_true (ne_of_mem_of_not_mem hd hbrace)]
      simp
    have hchars : ['\\', 'u', '{'] ++ hexDigits c.toNat ++ ['}'] ++ rest
        = '\\' :: 'u' :: '{' :: (hexDigits c.toNat ++ '}' :: rest) := by simp
    rw [hchars, readChar, hdigits, hnumber, Char.ofNat_toNat]
    simp

/-- No character is quoted as what ends a quoted text. -/
theorem head?_quotedChar (c : Char) : (quotedChar c).head? ≠ some '"' := by
  unfold quotedChar
  repeat' split
  all_goals simp [*]

/-! ### Texts -/

private theorem quotedChars_inj {cs ds x y : List Char}
    (h : cs.flatMap quotedChar ++ '"' :: x = ds.flatMap quotedChar ++ '"' :: y) :
    cs = ds ∧ x = y := by
  -- a text ends where the next character is the quotation mark
  have hends : ∀ (c : Char) (cs x y : List Char),
      (c :: cs).flatMap quotedChar ++ x ≠ '"' :: y := by
    intro c cs x y heq
    have hhead := head?_quotedChar c
    cases hc : quotedChar c with
    | nil =>
        have hread := readChar_quotedChar c []
        simp [hc, readChar] at hread
    | cons d rest => simp_all
  induction cs generalizing ds with
  | nil =>
      cases ds with
      | nil => simpa using h
      | cons d ds => exact absurd h.symm (hends d ds _ x)
  | cons c cs ih =>
      cases ds with
      | nil => exact absurd h (hends c cs _ y)
      | cons d ds =>
          rw [List.flatMap_cons, List.flatMap_cons, List.append_assoc, List.append_assoc] at h
          have hread := congrArg readChar h
          rw [readChar_quotedChar, readChar_quotedChar] at hread
          obtain ⟨rfl, hrest⟩ := Prod.mk.inj (Option.some.inj hread)
          obtain ⟨rfl, rfl⟩ := ih hrest
          exact ⟨rfl, rfl⟩

/-- **A quoted text at the start of another one is known**, and so is what follows it. -/
theorem quoted_append_inj {s s' x y : String} (h : quoted s ++ x = quoted s' ++ y) :
    s = s' ∧ x = y := by
  have hchars := congrArg String.toList h
  simp only [quoted, String.toList_append, String.toList_ofList, List.cons_append,
    List.append_assoc, List.cons.injEq, true_and] at hchars
  obtain ⟨hs, hx⟩ := quotedChars_inj hchars
  exact ⟨String.toList_inj.mp hs, String.toList_inj.mp hx⟩

end ParameterManager.Text
