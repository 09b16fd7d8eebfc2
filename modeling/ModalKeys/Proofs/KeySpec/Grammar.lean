import Mathlib.Data.Char
import Mathlib.Data.List.Sort
import ModalKeys.KeySpec

/-!
# The grammar of key specs

A text has one derivation at most: after an atom there is a comma or the end, so a dash behind the first
character of an atom can only stand in a range. Reading greedily therefore finds the derivation if there is
one, and it goes on for as long as any derivation does.
-/

namespace ModalKeys

/-! ## Spans -/

namespace KeySpan

theorem toNat_lt_toNat {a b : Char} : a.toNat < b.toNat ↔ a < b := Iff.rfl

theorem toNat_le_toNat {a b : Char} : a.toNat ≤ b.toNat ↔ a ≤ b := Iff.rfl

/-- A code point is that of one character at most. -/
theorem scalar?_eq_some_iff {n : Nat} {c : Char} : scalar? n = some c ↔ c.toNat = n := by
  constructor
  · intro h
    by_cases valid : n.isValidChar
    · rw [scalar?, dif_pos valid] at h
      cases h
      rfl
    · rw [scalar?, dif_neg valid] at h
      cases h
  · rintro rfl
    exact dif_pos c.valid

theorem keys_eq (s : KeySpan) :
    s.keys = (List.range' s.lo.toNat (s.hi.toNat + 1 - s.lo.toNat)).filterMap scalar? := by
  rw [keys, keysOnto, scalarsOnto_eq, List.append_nil]

theorem mem_keys {s : KeySpan} {c : Char} : c ∈ s.keys ↔ s.lo ≤ c ∧ c ≤ s.hi := by
  rw [keys_eq, List.mem_filterMap, ← toNat_le_toNat, ← toNat_le_toNat]
  constructor
  · rintro ⟨n, hn, hc⟩
    rw [List.mem_range'_1] at hn
    rw [scalar?_eq_some_iff] at hc
    omega
  · intro h
    refine ⟨c.toNat, ?_, scalar?_eq_some_iff.2 rfl⟩
    rw [List.mem_range'_1]
    omega

theorem pairwise_keys (s : KeySpan) : s.keys.Pairwise (· < ·) := by
  rw [keys_eq, List.pairwise_filterMap]
  have increasing := List.pairwise_lt_range' (s := s.lo.toNat) (n := s.hi.toNat + 1 - s.lo.toNat)
  refine increasing.imp fun {m n} hlt c hc d hd => ?_
  rw [scalar?_eq_some_iff] at hc hd
  rw [← toNat_lt_toNat]
  omega

/-- A span lists all that lies between its bounds, in increasing order, and nothing else does. -/
theorem eq_keys_iff {s : KeySpan} {ks : List Char} :
    ks = s.keys ↔ ks.Pairwise (· < ·) ∧ ∀ c, c ∈ ks ↔ s.lo ≤ c ∧ c ≤ s.hi := by
  constructor
  · rintro rfl
    exact ⟨s.pairwise_keys, fun c => mem_keys⟩
  · rintro ⟨increasing, between⟩
    exact increasing.eq_of_mem_iff s.pairwise_keys fun c => (between c).trans mem_keys.symm

theorem keys_single (c : Char) : (single c).keys = [c] := by
  symm
  rw [eq_keys_iff]
  refine ⟨List.pairwise_singleton _ c, fun d => ?_⟩
  rw [List.mem_singleton]
  constructor
  · rintro rfl
    exact ⟨le_refl d, le_refl d⟩
  · rintro ⟨hle, hge⟩
    exact le_antisymm hge hle

theorem between_eq (a b : Char) : between a b = ⟨min a b, max a b⟩ := by
  rw [between]
  split
  · next h => rw [min_eq_left h, max_eq_right h]
  · next h => rw [min_eq_right (le_of_not_ge h), max_eq_left (le_of_not_ge h)]

theorem between_comm (a b : Char) : between a b = between b a := by
  rw [between_eq, between_eq, min_comm, max_comm]

end KeySpan

namespace KeySpec

/-! ## Derivations -/

/-- An atom as the grammar has it. -/
inductive Atom where
  | char (c : Char)
  | range (a b : Char)

namespace Atom

/-- The text of an atom. -/
def text : Atom → List Char
  | char c => [c]
  | range a b => [a, '-', b]

/-- A character expands to itself, and a range to all characters from the smaller of its bounds to the
larger one, in increasing order. -/
def Expands : Atom → List Char → Prop
  | char c, ks => ks = [c]
  | range a b, ks => ks.Pairwise (· < ·) ∧ ∀ c, c ∈ ks ↔ min a b ≤ c ∧ c ≤ max a b

/-- The same atom, where a range may have its bounds in the other order. -/
inductive Turned : Atom → Atom → Prop
  | same (a : Atom) : Turned a a
  | swapped (a b : Char) : Turned (range a b) (range b a)

/-- The span that an atom is read as. -/
def span : Atom → KeySpan
  | char c => .single c
  | range a b => .between a b

theorem expands_iff {a : Atom} {ks : List Char} : a.Expands ks ↔ ks = a.span.keys := by
  cases a with
  | char c =>
      show ks = [c] ↔ ks = (KeySpan.single c).keys
      rw [KeySpan.keys_single]
  | range a b =>
      show _ ↔ ks = (KeySpan.between a b).keys
      rw [KeySpan.eq_keys_iff, KeySpan.between_eq]
      rfl

theorem Turned.span_eq {a b : Atom} (h : a.Turned b) : a.span = b.span := by
  cases h with
  | same => rfl
  | swapped a b => exact KeySpan.between_comm a b

end Atom

/-- The text of some atoms with a comma before each. -/
def tail (atoms : List Atom) : List Char := atoms.flatMap fun a => ',' :: a.text

/-- A derivation of a key spec: an atom, and any number of further ones. -/
structure Derivation where
  first : Atom
  rest : List Atom

namespace Derivation

def atoms (d : Derivation) : List Atom := d.first :: d.rest

/-- The text that is derived. -/
def text (d : Derivation) : List Char := d.first.text ++ tail d.rest

/-- The expansions of the atoms, one after another. -/
def Expands (d : Derivation) (ks : List Char) : Prop :=
  ∃ parts, List.Forall₂ Atom.Expands d.atoms parts ∧ ks = parts.flatten

/-- The same derivation with the bounds of some ranges swapped. -/
def Turned (d d' : Derivation) : Prop := List.Forall₂ Atom.Turned d.atoms d'.atoms

theorem cons_text (d : Derivation) : ',' :: d.text = tail d.atoms := rfl

theorem text_ne_nil (d : Derivation) : d.text ≠ [] := by
  obtain ⟨first, rest⟩ := d
  cases first <;> simp [text, Atom.text]

theorem expands_iff {d : Derivation} {ks : List Char} :
    d.Expands ks ↔ ks = (d.atoms.map Atom.span).flatMap KeySpan.keys := by
  have parts_eq (atoms : List Atom) (parts : List (List Char)) :
      List.Forall₂ Atom.Expands atoms parts ↔ parts = atoms.map fun a => a.span.keys := by
    induction atoms generalizing parts with
    | nil => simp
    | cons a atoms ih =>
        rw [List.forall₂_cons_left_iff]
        simp only [Atom.expands_iff, ih, List.map_cons]
        constructor
        · rintro ⟨_, _, rfl, rfl, rfl⟩
          rfl
        · rintro rfl
          exact ⟨_, _, rfl, rfl, rfl⟩
  rw [List.flatMap_map, List.flatMap_def]
  constructor
  · rintro ⟨parts, hp, rfl⟩
    rw [(parts_eq _ _).1 hp]
  · rintro rfl
    exact ⟨_, (parts_eq _ _).2 rfl, rfl⟩

theorem Turned.spans_eq {d d' : Derivation} (h : d.Turned d') :
    d.atoms.map Atom.span = d'.atoms.map Atom.span := by
  have h : List.Forall₂ Atom.Turned d.atoms d'.atoms := h
  generalize d.atoms = atoms, d'.atoms = atoms' at h
  induction h with
  | nil => rfl
  | cons ha _ ih => rw [List.map_cons, List.map_cons, ha.span_eq, ih]

end Derivation

/-! ## One derivation at most -/

theorem tail_cons (a : Atom) (atoms : List Atom) :
    tail (a :: atoms) = ',' :: (a.text ++ tail atoms) := rfl

/-- No dash stands behind an atom. -/
theorem eq_nil_of_tail_append {atoms : List Atom} {left t : List Char}
    (h : tail atoms ++ left = '-' :: t) : atoms = [] := by
  cases atoms with
  | nil => rfl
  | cons a atoms => simp [tail_cons] at h

theorem head?_tail_ne (atoms : List Atom) : (tail atoms).head? ≠ some '-' := by
  cases atoms <;> simp [tail]

/-- Without a dash behind them, atoms can be told apart by their text. -/
theorem Atom.eq_of_text_append {a a' : Atom} {t t' : List Char} (h : a.text ++ t = a'.text ++ t')
    (ht : t.head? ≠ some '-') (ht' : t'.head? ≠ some '-') : a = a' ∧ t = t' := by
  cases a with
  | char c =>
      cases a' with
      | char c' => simpa [text] using h
      | range b e =>
          obtain ⟨rfl, rfl⟩ : c = b ∧ t = '-' :: e :: t' := by simpa [text] using h
          exact absurd rfl ht
  | range b e =>
      cases a' with
      | char c =>
          obtain ⟨rfl, rfl⟩ : b = c ∧ '-' :: e :: t = t' := by simpa [text] using h
          exact absurd rfl ht'
      | range b' e' => simpa [text, and_assoc] using h

theorem tail_injective {atoms atoms' : List Atom} (h : tail atoms = tail atoms') :
    atoms = atoms' := by
  induction atoms generalizing atoms' with
  | nil =>
      cases atoms' with
      | nil => rfl
      | cons a' atoms' => simp [tail] at h
  | cons a atoms ih =>
      cases atoms' with
      | nil => simp [tail] at h
      | cons a' atoms' =>
          rw [tail_cons, tail_cons, List.cons_inj_right] at h
          obtain ⟨rfl, rest⟩ := Atom.eq_of_text_append h (head?_tail_ne _) (head?_tail_ne _)
          rw [ih rest]

theorem Derivation.text_injective {d d' : Derivation} (h : d.text = d'.text) : d = d' := by
  have atoms : d.atoms = d'.atoms := tail_injective (congrArg (',' :: ·) h)
  obtain ⟨first, rest⟩ := d
  obtain ⟨rfl, rfl⟩ := List.cons.inj atoms
  rfl

/-! ## Greedy reading -/

/-- What is read are atoms, and no atoms reach further into the text. -/
theorem exists_more (input : List Char) : ∃ atoms left,
    more input = (atoms.map Atom.span, left) ∧ input = tail atoms ++ left ∧
      ∀ atoms' left', input = tail atoms' ++ left' →
        (tail atoms').length ≤ (tail atoms).length := by
  fun_induction more input with
  | case1 a b rest spans left hmore ih =>
      obtain ⟨atoms, left', hm, rfl, longest⟩ := ih
      obtain ⟨rfl, rfl⟩ := Prod.mk.inj (hmore.symm.trans hm)
      refine ⟨.range a b :: atoms, left, rfl, rfl, fun atoms' left' h => ?_⟩
      rcases atoms' with _ | ⟨⟨c⟩ | ⟨c, e⟩, atoms'⟩
      · simp [tail]
      · -- a single character leaves the dash, where no atom goes on
        simp only [tail_cons, Atom.text, List.cons_append, List.nil_append, List.cons.injEq,
          true_and] at h
        rw [eq_nil_of_tail_append h.2.symm]
        simp [tail, Atom.text]
      · simp only [tail_cons, Atom.text, List.cons_append, List.nil_append, List.cons.injEq,
          true_and] at h
        simpa [tail_cons, Atom.text] using longest atoms' left' h.2.2
  | case2 a rest hrange spans left hmore ih =>
      obtain ⟨atoms, left', hm, rfl, longest⟩ := ih
      obtain ⟨rfl, rfl⟩ := Prod.mk.inj (hmore.symm.trans hm)
      refine ⟨.char a :: atoms, left, rfl, rfl, fun atoms' left' h => ?_⟩
      rcases atoms' with _ | ⟨⟨c⟩ | ⟨c, e⟩, atoms'⟩
      · simp [tail]
      · simp only [tail_cons, Atom.text, List.cons_append, List.nil_append, List.cons.injEq,
          true_and] at h
        simpa [tail_cons, Atom.text] using longest atoms' left' h.2
      · simp only [tail_cons, Atom.text, List.cons_append, List.nil_append, List.cons.injEq,
          true_and] at h
        exact absurd h.2 (hrange _ _)
  | case3 rest hrange hsingle =>
      refine ⟨[], rest, rfl, rfl, fun atoms' left' h => ?_⟩
      rcases atoms' with _ | ⟨⟨c⟩ | ⟨c, e⟩, atoms'⟩
      · simp
      · exact absurd h (hsingle _ _)
      · exact absurd h (hrange _ _ _)

/-- The first atom is read like one behind a comma. -/
theorem more_comma {source rest : List Char} {first : KeySpan}
    (h : atom source = some (first, rest)) :
    more (',' :: source) = (first :: (more rest).1, (more rest).2) := by
  rw [atom.eq_def] at h
  split at h
  · cases h
    rw [more]
  · next hrange =>
      cases h
      rw [more]
      exact hrange
  · cases h

theorem exists_atom {source : List Char} (h : source ≠ []) :
    ∃ first rest, atom source = some (first, rest) := by
  rw [atom.eq_def]
  split
  · exact ⟨_, _, rfl⟩
  · exact ⟨_, _, rfl⟩
  · exact absurd rfl h

/-- A text that is not empty begins with a spec, and none of its specs is longer than the one that is
read. It is accepted if that is all of it. -/
theorem exists_longest {source : List Char} (h : source ≠ []) :
    ∃ (d : Derivation) (left : List Char), source = d.text ++ left ∧
      (∀ (d' : Derivation) left', source = d'.text ++ left' → d'.text.length ≤ d.text.length) ∧
      spans source =
        if left = [] then .ok (d.atoms.map Atom.span) else .error d.text.length := by
  obtain ⟨first, rest, hatom⟩ := exists_atom h
  have comma := more_comma hatom
  obtain ⟨atoms, left, hmore, heq, longest⟩ := exists_more (',' :: source)
  rw [hmore] at comma
  obtain ⟨spans_eq, left_eq⟩ := Prod.mk.inj comma
  cases atoms with
  | nil => cases spans_eq
  | cons a atoms =>
      have source_eq : source = Derivation.text ⟨a, atoms⟩ ++ left := (List.cons.inj heq).2
      refine ⟨⟨a, atoms⟩, left, source_eq, fun d' left' h' => ?_, ?_⟩
      · have := longest d'.atoms left' (congrArg (',' :: ·) h')
        simpa [← Derivation.cons_text, tail_cons, Derivation.text] using this
      · obtain ⟨rfl, others_eq⟩ := List.cons.inj spans_eq
        have rest_eq : more rest = (atoms.map Atom.span, left) :=
          Prod.ext others_eq.symm left_eq.symm
        rw [spans, hatom]
        dsimp only
        rw [rest_eq]
        cases left with
        | nil => rfl
        | cons c left => simp [source_eq]

/-- A spec is accepted with the keys that a derivation of it expands to. -/
theorem keys_eq_ok_iff {source : String} {ks : List Char} :
    keys source = .ok ks ↔ ∃ d : Derivation, d.text = source.toList ∧ d.Expands ks := by
  have keys_of_spans {read : List KeySpan} (h : spans source.toList = .ok read) :
      keys source = .ok (read.flatMap KeySpan.keys) := by
    rw [keys, h, ← foldr_keysOnto]
    rfl
  constructor
  · intro h
    have some : source.toList ≠ [] := by
      intro none
      rw [keys, none] at h
      cases h
    obtain ⟨d, left, source_eq, -, hspans⟩ := exists_longest some
    split at hspans
    · next all =>
        rw [all, List.append_nil] at source_eq
        rw [keys_of_spans hspans] at h
        cases h
        exact ⟨d, source_eq.symm, Derivation.expands_iff.2 rfl⟩
    · rw [keys, hspans] at h
      cases h
  · rintro ⟨d, text, expands⟩
    obtain ⟨d', left, source_eq, longest, hspans⟩ := exists_longest (text ▸ d.text_ne_nil)
    -- the derivation that is read is no shorter than the given one, which is all of the text
    have all : left = [] := by
      have := longest d [] (by rw [text, List.append_nil])
      rw [text, source_eq, List.length_append] at this
      exact List.eq_nil_of_length_eq_zero (by omega)
    rw [if_pos all] at hspans
    rw [all, List.append_nil, ← text] at source_eq
    rw [keys_of_spans hspans, ← Derivation.text_injective source_eq, Derivation.expands_iff.1 expands]

/-- Whether a text is a key spec. -/
def Accepts (source : String) : Prop := ∃ ks, keys source = .ok ks

theorem accepts_iff {source : String} :
    Accepts source ↔ ∃ d : Derivation, d.text = source.toList := by
  constructor
  · rintro ⟨ks, h⟩
    obtain ⟨d, text, -⟩ := keys_eq_ok_iff.1 h
    exact ⟨d, text⟩
  · rintro ⟨d, text⟩
    exact ⟨_, keys_eq_ok_iff.2 ⟨d, text, Derivation.expands_iff.2 rfl⟩⟩

/-- Key specs are read by their grammar: a text has one derivation at most, it is accepted if it has one,
and its keys are then the expansions of the atoms in their order. The bounds of a range may be swapped. -/
theorem reads_grammar (source : String) :
    (∀ d d' : Derivation, d.text = source.toList → d'.text = source.toList → d = d') ∧
      (Accepts source ↔ ∃ d : Derivation, d.text = source.toList) ∧
      (∀ ks, keys source = .ok ks ↔
        ∃ d : Derivation, d.text = source.toList ∧ d.Expands ks) ∧
      ∀ d d' : Derivation, d.text = source.toList → d.Turned d' →
        keys (String.ofList d'.text) = keys source := by
  refine ⟨fun d d' h h' => Derivation.text_injective (h.trans h'.symm), accepts_iff,
    fun ks => keys_eq_ok_iff, fun d d' h turned => ?_⟩
  have source_keys := keys_eq_ok_iff.2 ⟨d, h, Derivation.expands_iff.2 rfl⟩
  rw [source_keys, keys_eq_ok_iff]
  refine ⟨d', by rw [String.toList_ofList], Derivation.expands_iff.2 ?_⟩
  rw [turned.spans_eq]

/-- Commas and dashes are keys where an atom stands. -/
example : ["a,,", ",-,", "-,-", "a-,,b"].map (fun source => spans source.toList) =
    [.ok [.single 'a', .single ','], .ok [.between ',' ','], .ok [.single '-', .single '-'],
      .ok [.between 'a' ',', .single 'b']] := rfl

end KeySpec

end ModalKeys
