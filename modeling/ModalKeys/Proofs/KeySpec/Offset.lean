import Mathlib.Order.Bounds.Basic
import ModalKeys.Keymap.ConfigError
import ModalKeys.Proofs.KeySpec.Grammar

/-!
# Where a key spec goes wrong

The offset that is reported for a text that is no key spec counts the characters up to where it could have
ended: those of the longest key spec that the text begins with.
-/

namespace ModalKeys

namespace KeySpec

/-- The numbers of characters of the key specs that a text begins with. -/
def acceptedLengths (source : String) : Set Nat :=
  {n | ∃ start : String, start.toList <+: source.toList ∧ Accepts start ∧ start.length = n}

theorem mem_acceptedLengths {source : String} {n : Nat} : n ∈ acceptedLengths source ↔
    ∃ (d : Derivation) (left : List Char), source.toList = d.text ++ left ∧ d.text.length = n := by
  constructor
  · rintro ⟨start, ⟨left, heq⟩, accepted, rfl⟩
    obtain ⟨d, text⟩ := accepts_iff.1 accepted
    refine ⟨d, left, ?_, ?_⟩
    · rw [text, heq]
    · rw [text, String.length_toList]
  · rintro ⟨d, left, heq, rfl⟩
    refine ⟨String.ofList d.text, ⟨left, ?_⟩, accepts_iff.2 ⟨d, ?_⟩, ?_⟩
    · rw [String.toList_ofList, heq]
    · rw [String.toList_ofList]
    · rw [String.length_ofList]

theorem acceptedLengths_empty : acceptedLengths "" = ∅ := by
  rw [Set.eq_empty_iff_forall_notMem]
  intro n hn
  obtain ⟨d, left, heq, -⟩ := mem_acceptedLengths.1 hn
  exact d.text_ne_nil (List.append_eq_nil_iff.1 heq.symm).1

/-- Of a text that is no key spec, the fault names the text and the length of the longest key spec that it
begins with. Only the empty text begins with none, and nothing of it is read. -/
theorem fault_of_rejected {source : String} (rejected : ¬Accepts source) :
    ∃ offset, (keys source).mapError (.keySpec source) =
        .error (ConfigFault.keySpec source offset) ∧
      (acceptedLengths source = ∅ ↔ source = "") ∧
      (source = "" → offset = 0) ∧
      (source ≠ "" → IsGreatest (acceptedLengths source) offset) ∧
      offset ≤ source.length := by
  by_cases empty : source = ""
  · subst empty
    exact ⟨0, rfl, by simp [acceptedLengths_empty], by simp, by simp, Nat.zero_le _⟩
  · have some : source.toList ≠ [] := by simpa using empty
    obtain ⟨d, left, source_eq, longest, hspans⟩ := exists_longest some
    have more : left ≠ [] := by
      rintro rfl
      rw [List.append_nil] at source_eq
      exact rejected (accepts_iff.2 ⟨d, source_eq.symm⟩)
    have greatest : IsGreatest (acceptedLengths source) d.text.length := by
      refine ⟨mem_acceptedLengths.2 ⟨d, left, source_eq, rfl⟩, fun n hn => ?_⟩
      obtain ⟨d', left', heq, rfl⟩ := mem_acceptedLengths.1 hn
      exact longest d' left' heq
    refine ⟨d.text.length, ?_, ?_, fun h => absurd h empty, fun _ => greatest, ?_⟩
    · rw [keys, hspans, if_neg more]
      rfl
    · constructor
      · intro none
        exact absurd greatest.1 (by simp [none])
      · exact fun h => absurd h empty
    · rw [← String.length_toList, source_eq, List.length_append]
      exact Nat.le_add_right _ _

/-- The offset counts characters, however many bytes they take. -/
theorem fault_of_rejected_wide_characters :
    ¬Accepts "é,,é" ∧ keys "é,,é" = .error 3 ∧ IsGreatest (acceptedLengths "é,,é") 3 := by
  have error : keys "é,,é" = .error 3 := rfl
  have rejected : ¬Accepts "é,,é" := by
    rintro ⟨ks, h⟩
    cases error.symm.trans h
  obtain ⟨offset, fault, -, -, greatest, -⟩ := fault_of_rejected rejected
  rw [error] at fault
  cases fault
  exact ⟨rejected, error, greatest (by decide)⟩

end KeySpec

end ModalKeys
