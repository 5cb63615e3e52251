/-
Texts that a header value can hold.

A header value has no control characters but the tab, and everything else, inside ASCII or
outside, goes into it as the bytes of its encoding.  So whether a token can be sent is a
question about its characters.
-/
import ParameterManager.Http.Agent
import ParameterManager.Proofs.Text.Utf8

namespace ParameterManager

/-- A text without control characters but the tab. -/
def IsHeaderText (s : String) : Prop :=
  ∀ c ∈ s.toList, c.toNat < 0x20 ∨ c.toNat = 0x7F → c = '\t'

instance (s : String) : Decidable (IsHeaderText s) := List.decidableBAll _ s.toList

namespace IsHeaderText

variable {s t : String}

theorem append (hs : IsHeaderText s) (ht : IsHeaderText t) : IsHeaderText (s ++ t) := by
  intro c hc
  rw [String.toList_append] at hc
  rcases List.mem_append.mp hc with hc | hc
  · exact hs c hc
  · exact ht c hc

/-- The bytes of such a text may stand in a header value. -/
theorem isHeaderByte (h : IsHeaderText s) {b : UInt8} (hb : b ∈ Utf8.encode s) :
    Message.isHeaderByte b = true := by
  obtain ⟨c, hc, hb⟩ := List.mem_flatMap.mp hb
  simp only [Message.isHeaderByte, Bool.or_eq_true, Bool.and_eq_true, decide_eq_true_eq, beq_iff_eq]
  by_cases hascii : c.toNat < 0x80
  · rw [Utf8.encodeChar_of_ascii hascii, List.mem_singleton] at hb
    rw [hb, Utf8.byte_toNat (by omega)]
    by_cases hcontrol : c.toNat < 0x20 ∨ c.toNat = 0x7F
    · rw [h c hc hcontrol]
      exact Or.inr rfl
    · exact Or.inl (by omega)
  · have hlow := Utf8.le_of_mem_encodeChar (by omega) hb
    exact Or.inl (by omega)

/-- **A token that is such a text can be sent.** -/
theorem bearer (h : IsHeaderText s) : (Message.bearer s).all Message.isHeaderByte = true := by
  have hscheme : IsHeaderText "Bearer " := by decide
  rw [List.all_eq_true]
  intro b hb
  exact (hscheme.append h).isHeaderByte hb

end IsHeaderText

end ParameterManager
