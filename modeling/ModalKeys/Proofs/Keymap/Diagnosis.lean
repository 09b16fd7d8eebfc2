import ModalKeys.Proofs.Keymap.Compilation

/-!
# Everything that is wrong with a configuration

Compilation stops at the first error. Here all errors of a configuration are listed, in the order of the
text and with paths counted from the value at hand, without looking at a store. What is compiled fails with
the first error of the list, and only if there is one. The list itself holds what is wrong with each
object, each key and each value that the keys of the configuration lead to, and nothing else.
-/

namespace ModalKeys

variable {σ : Type}

namespace Config

/-! ## All errors -/

/-- What is wrong with one of the texts that describe a keymap. -/
def textFaults (name : String) (fault : Json → ConfigFault) (members : List (String × Json)) :
    List ConfigFault :=
  match Json.member? name members with
  | none | some (.string _) => []
  | some v => [fault v]

/-- What is wrong with the texts that describe a keymap. -/
def keymapFaults (members : List (String × Json)) : List ConfigFault :=
  textFaults "id" .idNotString members ++ textFaults "help" .helpNotString members

def keyFaults (name : String) : List ConfigFault :=
  match KeySpec.keys name with
  | .ok _ => []
  | .error offset => [.keySpec name offset]

/-- What is wrong with a back reference that `depth` objects enclose. -/
def referenceFaults (depth : Nat) (n : JsonNumber) : List ConfigFault :=
  match n.toInt64? with
  | none => [.fractionalReference n]
  | some i =>
    if 0 < i then [.forwardReference i]
    else if i.natAbs < depth then []
    else [.referenceOutOfRange i depth]

def nameFaults (name : String) : List ConfigFault := if name = "" then [.emptyCommand] else []

def argumentFaults : Option Json → List ConfigFault
  | none | some .null | some (.object _) | some (.string _) => []
  | some v => [.badArguments v]

def commandFaults (members : List (String × Json)) : List ConfigFault :=
  match Json.member? "command" members with
  | some (.string name) => nameFaults name ++ argumentFaults (Json.member? "args" members)
  | _ => [.notBinding (.object members)]

mutual

def actionFaults : Json → List ConfigFault
  | .string name => nameFaults name
  | .object members => commandFaults members
  | .array items => itemFaults items
  | .null => [.notBinding .null]
  | .bool b => [.notBinding (.bool b)]
  | .number n => [.notBinding (.number n)]
termination_by structural v => v

def itemFaults : List Json → List ConfigFault
  | [] => []
  | v :: vs => actionFaults v ++ itemFaults vs
termination_by structural vs => vs

end

/-- Faults of a value itself. -/
def here (faults : List ConfigFault) : List ConfigError := faults.map (⟨[], ·⟩)

/-- The error as it is seen from further out. -/
def under (path : List String) (e : ConfigError) : ConfigError := { e with path := path ++ e.path }

mutual

/-- All errors of a value that `depth` objects enclose. -/
def valueErrors (depth : Nat) : Json → List ConfigError
  | .number n => here (referenceFaults depth n)
  | .object members =>
    if Json.hasMember "command" members then here (commandFaults members)
    else here (keymapFaults members) ++ entriesErrors (depth + 1) members
  | .null => here (actionFaults .null)
  | .bool b => here (actionFaults (.bool b))
  | .string name => here (actionFaults (.string name))
  | .array items => here (actionFaults (.array items))
termination_by structural v => v

/-- All errors of the entries of an object that is the innermost of `depth` objects. -/
def entriesErrors (depth : Nat) : List (String × Json) → List ConfigError
  | [] => []
  | m :: ms => entryErrors depth m ++ entriesErrors depth ms
termination_by structural ms => ms

def entryErrors (depth : Nat) : String × Json → List ConfigError
  | (name, v) =>
    if isReserved name then []
    else (here (keyFaults name) ++ valueErrors depth v).map (under [name])
termination_by structural m => m

end

/-- All errors of a configuration in the order of the text. -/
def errors : Json → List ConfigError
  | .object members => here (keymapFaults members) ++ entriesErrors 1 members
  | v => [⟨[], .notKeymap v⟩]

/-! ## The first error -/

/-- The result is the first error of a list, or a value if there is none. -/
inductive Stops {ε β : Type} : List ε → Except ε β → Prop
  | error (e : ε) (es : List ε) : Stops (e :: es) (.error e)
  | ok (b : β) : Stops [] (.ok b)

namespace Stops

variable {ε ε' β γ : Type} {es fs : List ε} {x : Except ε β}

theorem bind {f : β → Except ε γ} (h : Stops es x) (hf : ∀ b, Stops fs (f b)) :
    Stops (es ++ fs) (x >>= f) := by
  cases h with
  | error e es => exact .error e (es ++ fs)
  | ok b => exact hf b

theorem andThen {f : β → γ} (h : Stops es x) : Stops es (x >>= fun b => .ok (f b)) := by
  cases h with
  | error e es => exact .error e es
  | ok b => exact .ok (f b)

theorem map {f : β → γ} (h : Stops es x) : Stops es (x.map f) := by
  cases h with
  | error e es => exact .error e es
  | ok b => exact .ok (f b)

theorem ok_iff (h : Stops es x) : (∃ b, x = .ok b) ↔ es = [] := by
  cases h with
  | error e es => simp
  | ok b => simp

theorem error_iff (h : Stops es x) (e : ε) : x = .error e ↔ es.head? = some e := by
  cases h with
  | error e' es => simp
  | ok b => simp

end Stops

theorem map_under_here (path : List String) (faults : List ConfigFault) :
    (here faults).map (under path) = faults.map (⟨path, ·⟩) := by
  simp [here, under]

theorem map_under_under (path path' : List String) (es : List ConfigError) :
    (es.map (under path')).map (under path) = es.map (under (path ++ path')) := by
  simp [under]

theorem Stops.located {β : Type} {faults : List ConfigFault} {x : Except ConfigFault β}
    (h : Stops faults x) (path : List String) (s : Store (Action σ)) :
    Stops ((here faults).map (under path)) ((located path x).result s) := by
  rw [map_under_here]
  cases h with
  | error fault faults => exact .error _ _
  | ok b => exact .ok _

/-- A compiler that goes on with another one stops at its own errors first. -/
theorem Stops.run {β γ : Type} {es es' : List ConfigError} {x : Compiler σ β} {f : β → Compiler σ γ}
    {s : Store (Action σ)} (h : Stops es (x.result s))
    (hf : ∀ b s', Stops es' ((f b).result s')) : Stops (es ++ es') ((x >>= f).result s) := by
  rw [Compiler.result_bind]
  exact h.bind fun r => hf r.1 r.2

theorem Stops.runLast {β γ : Type} {es : List ConfigError} {x : Compiler σ β} {f : β → Compiler σ γ}
    {s : Store (Action σ)} (h : Stops es (x.result s)) (hf : ∀ b s', Stops [] ((f b).result s')) :
    Stops es ((x >>= f).result s) :=
  List.append_nil es ▸ h.run hf

theorem stops_describe (name : String) (fault : Json → ConfigFault)
    (members : List (String × Json)) :
    Stops (textFaults name fault members) (describe name fault members) := by
  unfold textFaults describe
  rcases Json.member? name members with _ | v
  · exact .ok none
  · cases v with
    | string text => exact .ok (some text)
    | null => exact .error _ []
    | bool b => exact .error _ []
    | number n => exact .error _ []
    | array items => exact .error _ []
    | object members => exact .error _ []

theorem stops_describedKeymap (path : List String) (members : List (String × Json))
    (s : Store (Action σ)) :
    Stops ((here (keymapFaults members)).map (under path))
      ((describedKeymap path members).result s) := by
  rw [keymapFaults, here, List.map_append, List.map_append]
  refine ((stops_describe "id" .idNotString members).located path s).run ?_
  intro id s₁
  exact ((stops_describe "help" .helpNotString members).located path s₁).runLast fun _ _ => .ok _

theorem stops_keys (name : String) :
    Stops (keyFaults name) ((KeySpec.keys name).mapError (.keySpec name)) := by
  unfold keyFaults
  rcases KeySpec.keys name with offset | keys
  · exact .error _ []
  · exact .ok keys

theorem stops_reference (enclosing : List KeymapId) (n : JsonNumber) :
    Stops (referenceFaults enclosing.length n) (reference enclosing n) := by
  unfold referenceFaults reference
  rcases n.toInt64? with _ | i
  · exact .error _ []
  · by_cases positive : 0 < i
    · simp only [if_pos positive]
      exact .error _ []
    · simp only [if_neg positive]
      by_cases inside : i.natAbs < enclosing.length
      · rw [if_pos inside, List.getElem?_eq_getElem inside]
        exact .ok _
      · rw [if_neg inside, List.getElem?_eq_none (Nat.le_of_not_lt inside)]
        exact .error _ []

theorem stops_command (members : List (String × Json)) :
    Stops (commandFaults members) (command members : Except ConfigFault (Action σ)) := by
  unfold commandFaults command
  rcases Json.member? "command" members with _ | v
  · exact .error _ []
  · cases v with
    | string name =>
        by_cases empty : name = ""
        · simp only [nameFaults, if_pos empty]
          exact .error _ _
        · simp only [nameFaults, if_neg empty, List.nil_append]
          rcases Json.member? "args" members with _ | v
          · exact .ok _
          · cases v with
            | null => exact .ok _
            | object members => exact .ok _
            | string text => exact .ok _
            | bool b => exact .error _ []
            | number n => exact .error _ []
            | array items => exact .error _ []
    | null => exact .error _ []
    | bool b => exact .error _ []
    | number n => exact .error _ []
    | array items => exact .error _ []
    | object inner => exact .error _ []

mutual

theorem stops_action (v : Json) :
    Stops (actionFaults v) (action v : Except ConfigFault (Action σ)) := by
  cases v with
  | string name =>
      rw [actionFaults, action, nameFaults]
      split
      · exact .error _ []
      · exact .ok _
  | object members =>
      rw [actionFaults, action]
      exact stops_command members
  | array items =>
      rw [actionFaults, action]
      exact (stops_actions items).map
  | null => exact .error _ []
  | bool b => exact .error _ []
  | number n => exact .error _ []
termination_by structural v

theorem stops_actions (vs : List Json) :
    Stops (itemFaults vs) (actions vs : Except ConfigFault (List (Action σ))) := by
  cases vs with
  | nil => exact .ok []
  | cons v vs =>
      rw [itemFaults, actions]
      exact (stops_action v).bind fun _ => (stops_actions vs).andThen
termination_by structural vs

end

theorem stops_taggedAction (path : List String) (v : Json) (s : Store (Action σ)) :
    Stops ((here (actionFaults v)).map (under path)) ((taggedAction path v).result s) :=
  ((stops_action v).located path s).runLast fun _ _ => .ok _

mutual

theorem stops_value (enclosing : List KeymapId) (path : List String) (s : Store (Action σ))
    (v : Json) :
    Stops ((valueErrors enclosing.length v).map (under path))
      ((value enclosing path v).result s) := by
  cases v with
  | number n =>
      rw [valueErrors, value]
      exact ((stops_reference enclosing n).located path s).runLast fun _ _ => .ok _
  | object members =>
      rw [valueErrors, value]
      split
      · exact stops_taggedAction path (.object members) s
      · rw [List.map_append]
        refine (stops_describedKeymap path members s).run ?_
        intro km s₁
        exact (stops_entries km enclosing path s₁ members).runLast fun _ _ => .ok _
  | null =>
      rw [valueErrors, map_under_here]
      exact .error _ []
  | bool b =>
      rw [valueErrors, map_under_here]
      exact .error _ []
  | string name => exact stops_taggedAction path (.string name) s
  | array items => exact stops_taggedAction path (.array items) s
termination_by structural v

theorem stops_entries (km : KeymapId) (enclosing : List KeymapId) (path : List String)
    (s : Store (Action σ)) (ms : List (String × Json)) :
    Stops ((entriesErrors (enclosing.length + 1) ms).map (under path))
      ((entries km enclosing path ms).result s) := by
  cases ms with
  | nil => exact .ok _
  | cons m ms =>
      rw [entriesErrors, entries, List.map_append]
      exact (stops_entry km enclosing path s m).run fun _ s₁ =>
        stops_entries km enclosing path s₁ ms
termination_by structural ms

theorem stops_entry (km : KeymapId) (enclosing : List KeymapId) (path : List String)
    (s : Store (Action σ)) (m : String × Json) :
    Stops ((entryErrors (enclosing.length + 1) m).map (under path))
      ((entry km enclosing path m).result s) := by
  obtain ⟨name, v⟩ := m
  rw [entryErrors, entry]
  split
  · exact .ok _
  · rw [map_under_under, List.map_append]
    refine ((stops_keys name).located (path ++ [name]) s).run ?_
    intro keys s₁
    exact (stops_value (km :: enclosing) (path ++ [name]) s₁ v).runLast fun _ _ => .ok _
termination_by structural m

end

theorem map_under_nil (es : List ConfigError) : es.map (under []) = es := List.map_id es

theorem stops_compile (s : Store (Action σ)) (config : Json) :
    Stops (errors config) (s.compile config) := by
  cases config with
  | object members =>
      rw [errors, Store.compile, ← map_under_nil (here _ ++ _), List.map_append]
      refine (stops_describedKeymap [] members s).run ?_
      intro km s₁
      exact (stops_entries km [] [] s₁ members).runLast fun _ _ => .ok _
  | null => exact .error _ []
  | bool b => exact .error _ []
  | number n => exact .error _ []
  | string text => exact .error _ []
  | array items => exact .error _ []

/-! ## Where the errors are -/

/-- The keys lead from an object through objects that stand for keymaps to one of them. -/
inductive Nested : List (String × Json) → List String → List (String × Json) → Prop
  | self {members : List (String × Json)} : Nested members [] members
  | inside {members next inner : List (String × Json)} {name : String} {v : Json}
      {path : List String} :
      (name, v) ∈ members → isReserved name = false → meaning v = .keymap next →
      Nested next path inner → Nested members (name :: path) inner

/-- Something is wrong with a keymap, with one of its keys, or with what is under a key. Whatever it
is, it stands where the path leads. There are `around` further objects around the outermost one. -/
inductive Faulty (around : Nat) (root : List (String × Json)) : ConfigError → Prop
  | keymap {path : List String} {members : List (String × Json)} {fault : ConfigFault} :
      Nested root path members → fault ∈ keymapFaults members → Faulty around root ⟨path, fault⟩
  | key {path : List String} {members : List (String × Json)} {name : String} {v : Json}
      {fault : ConfigFault} :
      Nested root path members → (name, v) ∈ members → isReserved name = false →
      fault ∈ keyFaults name → Faulty around root ⟨path ++ [name], fault⟩
  | reference {path : List String} {members : List (String × Json)} {name : String} {n : JsonNumber}
      {fault : ConfigFault} :
      Nested root path members → (name, .number n) ∈ members → isReserved name = false →
      fault ∈ referenceFaults (around + path.length + 1) n →
      Faulty around root ⟨path ++ [name], fault⟩
  | action {path : List String} {members : List (String × Json)} {name : String} {v : Json}
      {fault : ConfigFault} :
      Nested root path members → (name, v) ∈ members → isReserved name = false →
      meaning v = .action → fault ∈ actionFaults v → Faulty around root ⟨path ++ [name], fault⟩

/-- Something is wrong with a configuration. -/
def Wrong : Json → ConfigError → Prop
  | .object members, e => Faulty 0 members e
  | v, e => e = ⟨[], .notKeymap v⟩

theorem mem_here {faults : List ConfigFault} {e : ConfigError} :
    e ∈ here faults ↔ e.path = [] ∧ e.fault ∈ faults := by
  obtain ⟨path, fault⟩ := e
  rw [here, List.mem_map]
  constructor
  · rintro ⟨f, hf, heq⟩
    cases heq
    exact ⟨rfl, hf⟩
  · rintro ⟨rfl, hf⟩
    exact ⟨fault, hf, rfl⟩

theorem Faulty.under {around : Nat} {root next : List (String × Json)} {name : String} {v : Json}
    {e : ConfigError} (hm : (name, v) ∈ root) (hn : isReserved name = false)
    (hv : meaning v = .keymap next) (h : Faulty (around + 1) next e) :
    Faulty around root (under [name] e) := by
  cases h with
  | keymap nested hf => exact .keymap (.inside hm hn hv nested) hf
  | key nested hm' hn' hf => exact .key (.inside hm hn hv nested) hm' hn' hf
  | @reference path _ _ _ _ nested hm' hn' hf =>
      have depth : around + 1 + path.length + 1 = around + (name :: path).length + 1 := by
        rw [List.length_cons]
        omega
      exact .reference (.inside hm hn hv nested) hm' hn' (depth ▸ hf)
  | action nested hm' hn' hv' hf => exact .action (.inside hm hn hv nested) hm' hn' hv' hf

mutual

theorem faulty_of_value (v : Json) {around : Nat} {root : List (String × Json)} {name : String}
    (hm : (name, v) ∈ root) (hn : isReserved name = false) {e : ConfigError}
    (he : e ∈ valueErrors (around + 1) v) : Faulty around root (under [name] e) := by
  obtain ⟨path, fault⟩ := e
  have act (hv : meaning v = .action) (he : ⟨path, fault⟩ ∈ here (actionFaults v)) :
      Faulty around root (under [name] ⟨path, fault⟩) := by
    obtain ⟨rfl, hf⟩ := mem_here.1 he
    exact .action .self hm hn hv hf
  cases v with
  | number n =>
      rw [valueErrors] at he
      obtain ⟨rfl, hf⟩ := mem_here.1 he
      exact .reference .self hm hn hf
  | object members =>
      rw [valueErrors] at he
      split at he
      · next command => exact act (if_pos command) he
      · next keymap =>
          have hv : meaning (.object members) = .keymap members := if_neg keymap
          rcases List.mem_append.1 he with he | he
          · obtain ⟨rfl, hf⟩ := mem_here.1 he
            exact .keymap (.inside hm hn hv .self) hf
          · exact (faulty_of_entries members (List.Subset.refl _) he).under hm hn hv
  | null =>
      rw [valueErrors] at he
      exact act rfl he
  | bool b =>
      rw [valueErrors] at he
      exact act rfl he
  | string text =>
      rw [valueErrors] at he
      exact act rfl he
  | array items =>
      rw [valueErrors] at he
      exact act rfl he
termination_by structural v

theorem faulty_of_entries (ms : List (String × Json)) {around : Nat} {root : List (String × Json)}
    (hms : ms ⊆ root) {e : ConfigError} (he : e ∈ entriesErrors (around + 1) ms) :
    Faulty around root e := by
  cases ms with
  | nil => cases he
  | cons m ms =>
      rw [entriesErrors] at he
      rcases List.mem_append.1 he with he | he
      · exact faulty_of_entry m (hms List.mem_cons_self) he
      · exact faulty_of_entries ms (fun x hx => hms (List.mem_cons_of_mem m hx)) he
termination_by structural ms

theorem faulty_of_entry (m : String × Json) {around : Nat} {root : List (String × Json)}
    (hm : m ∈ root) {e : ConfigError} (he : e ∈ entryErrors (around + 1) m) :
    Faulty around root e := by
  obtain ⟨name, v⟩ := m
  rw [entryErrors] at he
  split at he
  · cases he
  · next reserved =>
      have hn : isReserved name = false := Bool.eq_false_iff.2 reserved
      obtain ⟨⟨path, fault⟩, inner, rfl⟩ := List.mem_map.1 he
      rcases List.mem_append.1 inner with hk | hv
      · obtain ⟨rfl, hf⟩ := mem_here.1 hk
        exact .key .self hm hn hf
      · exact faulty_of_value v hm hn hv
termination_by structural m

end

section Listed

variable {around : Nat} {root members next : List (String × Json)} {name : String} {v : Json}
  {path : List String} {e : ConfigError}

theorem mem_entriesErrors {depth : Nat} {e : ConfigError} (hm : (name, v) ∈ members)
    (hn : isReserved name = false) (he : e ∈ here (keyFaults name) ++ valueErrors depth v) :
    under [name] e ∈ entriesErrors depth members := by
  induction members with
  | nil => cases hm
  | cons m ms ih =>
      rw [entriesErrors, List.mem_append]
      rcases List.mem_cons.1 hm with rfl | hm
      · left
        rw [entryErrors, if_neg (Bool.eq_false_iff.1 hn)]
        exact List.mem_map_of_mem he
      · exact Or.inr (ih hm)

theorem valueErrors_of_keymap (hv : meaning v = .keymap next) (depth : Nat) :
    valueErrors depth v = here (keymapFaults next) ++ entriesErrors (depth + 1) next := by
  cases v with
  | object members =>
      rw [meaning] at hv
      split at hv
      · cases hv
      · next keymap =>
          cases hv
          rw [valueErrors, if_neg keymap]
  | _ => cases hv

theorem valueErrors_of_action (hv : meaning v = .action) (depth : Nat) :
    valueErrors depth v = here (actionFaults v) := by
  cases v with
  | number n => cases hv
  | object members =>
      rw [meaning] at hv
      split at hv
      · next command => rw [valueErrors, if_pos command, actionFaults]
      · cases hv
  | _ => rw [valueErrors]

theorem Nested.mem (h : Nested root path members) {around : Nat} {e : ConfigError}
    (he : e ∈ here (keymapFaults members) ++ entriesErrors (around + path.length + 1) members) :
    under path e ∈ here (keymapFaults root) ++ entriesErrors (around + 1) root := by
  induction h generalizing around with
  | self => exact he
  | @inside members next inner name v path hm hn hv nested ih =>
      have depth : around + (name :: path).length + 1 = around + 1 + path.length + 1 := by
        rw [List.length_cons]
        omega
      rw [depth] at he
      have inner := ih he
      rw [← valueErrors_of_keymap hv] at inner
      exact List.mem_append_right _ (mem_entriesErrors hm hn (List.mem_append_right _ inner))

theorem Nested.mem_entry (h : Nested root path members) {around : Nat} {fault : ConfigFault}
    (hm : (name, v) ∈ members) (hn : isReserved name = false)
    (he : fault ∈ keyFaults name ∨ ⟨[], fault⟩ ∈ valueErrors (around + path.length + 1) v) :
    ⟨path ++ [name], fault⟩ ∈ here (keymapFaults root) ++ entriesErrors (around + 1) root := by
  have listed : ⟨[], fault⟩ ∈ here (keyFaults name) ++ valueErrors (around + path.length + 1) v :=
    List.mem_append.2 (he.imp_left fun hf => mem_here.2 ⟨rfl, hf⟩)
  exact h.mem (List.mem_append_right _ (mem_entriesErrors hm hn listed))

theorem mem_errors_of_faulty (h : Faulty around root e) :
    e ∈ here (keymapFaults root) ++ entriesErrors (around + 1) root := by
  cases h with
  | @keymap path members fault nested hf =>
      have listed : ⟨[], fault⟩ ∈ here (keymapFaults members) ++
          entriesErrors (around + path.length + 1) members :=
        List.mem_append_left _ (mem_here.2 ⟨rfl, hf⟩)
      have := nested.mem listed
      rwa [under, List.append_nil] at this
  | key nested hm hn hf => exact nested.mem_entry hm hn (Or.inl hf)
  | reference nested hm hn hf =>
      refine nested.mem_entry hm hn (Or.inr ?_)
      rw [valueErrors]
      exact mem_here.2 ⟨rfl, hf⟩
  | action nested hm hn hv hf =>
      refine nested.mem_entry hm hn (Or.inr ?_)
      rw [valueErrors_of_action hv]
      exact mem_here.2 ⟨rfl, hf⟩

end Listed

/-- The list of errors holds everything that is wrong with a configuration, and nothing else. -/
theorem mem_errors (config : Json) (e : ConfigError) : e ∈ errors config ↔ Wrong config e := by
  cases config with
  | object members =>
      constructor
      · intro he
        rcases List.mem_append.1 he with he | he
        · obtain ⟨path, fault⟩ := e
          obtain ⟨rfl, hf⟩ := mem_here.1 he
          exact .keymap .self hf
        · exact faulty_of_entries members (List.Subset.refl _) he
      · exact fun h => mem_errors_of_faulty h
  | _ => exact List.mem_singleton

end Config

/-- A configuration compiles if nothing is wrong with it, whatever keymaps there are. Otherwise the error is
the first one in the order of the text. -/
theorem Store.compile_first_error (s : Store (Action σ)) (config : Json) :
    ((∃ compiled, s.compile config = .ok compiled) ↔ Config.errors config = []) ∧
      (∀ e, s.compile config = .error e ↔ (Config.errors config).head? = some e) ∧
      ∀ e, e ∈ Config.errors config ↔ Config.Wrong config e := by
  have stops := Config.stops_compile s config
  exact ⟨stops.ok_iff, stops.error_iff, Config.mem_errors config⟩

/-- After a key spec that cannot be read, the value under it is looked at as well. -/
example : Config.errors (.object [("x", .object [("a-", .number (.integer (-2)))]), ("help", .null)]) =
    [⟨[], .helpNotString .null⟩, ⟨["x", "a-"], .keySpec "a-" 1⟩,
      ⟨["x", "a-"], .referenceOutOfRange (-2) 2⟩] := by
  rfl

end ModalKeys
