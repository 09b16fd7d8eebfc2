import ModalKeys.Builtin
import ModalKeys.Proofs.Keymap.Reordering

/-!
# The options of `enterMode`

Options are read from an object of their own, or from the arguments of `enterMode`, where they stand
beside the name of the mode. The two readers differ in one place: where a name is written as an object,
only null may be in it for the first one, and an empty object as well for the second. There is no other
difference. What the first one accepts is stated here without it, field by field.
-/

namespace ModalKeys

namespace Json

variable {α : Type}

/-! ## Names and fields -/

/-- A value that stands for `a`: its name, or an object with the name as its only member and null in
it. -/
inductive Chooses (names : List (String × α)) : Json → α → Prop
  | name {s : String} {a : α} : names.lookup s = some a → Chooses names (.string s) a
  | entry {s : String} {a : α} : names.lookup s = some a → Chooses names (.object [(s, .null)]) a

/-- A field that leaves an option unset or sets it. -/
inductive Sets (Reads : Json → α → Prop) : Option Json → Option α → Prop
  | missing : Sets Reads none none
  | null : Sets Reads (some .null) none
  | given {v : Json} {a : α} : v ≠ .null → Reads v a → Sets Reads (some v) (some a)

theorem choice?_eq_some_iff {names : List (String × α)} {v : Json} {a : α} :
    choice? isNull names v = some a ↔ Chooses names v a := by
  constructor
  · intro h
    unfold choice? at h
    split at h
    · exact .name h
    · next s w =>
      split at h
      · next nothing =>
        cases w with
        | null => exact .entry h
        | _ => cases nothing
      · cases h
    · cases h
  · rintro (h | h)
    · exact h
    · exact h

theorem bool?_eq_some_iff {v : Json} {b : Bool} : bool? v = some b ↔ v = .bool b := by
  cases v <;> simp [bool?]

theorem optional?_of_ne_null {read : Json → Option α} {v : Json} (h : v ≠ .null) :
    optional? read (some v) = (read v).map some := by
  cases v with
  | null => exact (h rfl).elim
  | _ => rfl

theorem optional?_eq_some_iff {read : Json → Option α} {Reads : Json → α → Prop}
    (h : ∀ v a, read v = some a ↔ Reads v a) {field : Option Json} {option : Option α} :
    optional? read field = some option ↔ Sets Reads field option := by
  constructor
  · intro hr
    cases field with
    | none =>
      cases hr
      exact .missing
    | some v =>
      by_cases null : v = .null
      · subst null
        cases hr
        exact .null
      · rw [optional?_of_ne_null null, Option.map_eq_some_iff] at hr
        obtain ⟨a, ha, rfl⟩ := hr
        exact .given null ((h v a).1 ha)
  · intro hs
    cases hs with
    | missing => rfl
    | null => rfl
    | given null reads => rw [optional?_of_ne_null null, (h _ _).2 reads, Option.map_some]

/-! ## Empty objects beside a name -/

/-- A value in which an empty object that stands beside a name is replaced by null. -/
def emptyAsNull : Json → Json
  | .object [(name, .object [])] => .object [(name, .null)]
  | v => v

/-- The members of an object with such empty objects replaced. -/
def emptiesAsNull (members : List (String × Json)) : List (String × Json) :=
  members.map fun (name, v) => (name, emptyAsNull v)

theorem emptyAsNull_of_ne {v : Json} (h : ∀ name, v ≠ .object [(name, .object [])]) :
    emptyAsNull v = v := by
  unfold emptyAsNull
  split
  · exact (h _ rfl).elim
  · rfl

theorem member?_emptiesAsNull (name : String) (members : List (String × Json)) :
    member? name (emptiesAsNull members) = (member? name members).map emptyAsNull := by
  induction members with
  | nil => rfl
  | cons m rest ih =>
    obtain ⟨other, v⟩ := m
    simp only [emptiesAsNull, List.map_cons, member?]
    split
    · rfl
    · exact ih

theorem isNullOrEmpty_of_ne {v : Json} (h : v ≠ .object []) : isNullOrEmpty v = isNull v := by
  cases v with
  | object members =>
    cases members with
    | nil => exact (h rfl).elim
    | cons => rfl
  | _ => rfl

/-- An empty object is what the lenient reader takes for null, and nothing else. -/
theorem choice?_emptyAsNull (names : List (String × α)) (v : Json) :
    choice? isNull names (emptyAsNull v) = choice? isNullOrEmpty names v := by
  by_cases empty : ∃ name, v = .object [(name, .object [])]
  · obtain ⟨name, rfl⟩ := empty
    rfl
  · rw [not_exists] at empty
    rw [emptyAsNull_of_ne empty]
    unfold choice?
    split
    · rfl
    · next name w => rw [isNullOrEmpty_of_ne fun he => empty name (by rw [he])]
    · rfl

theorem bool?_emptyAsNull (v : Json) : bool? (emptyAsNull v) = bool? v := by
  unfold emptyAsNull
  split <;> rfl

theorem emptyAsNull_ne_null {v : Json} (h : v ≠ .null) : emptyAsNull v ≠ .null := by
  unfold emptyAsNull
  split
  · simp
  · exact h

/-- A field is null afterwards only if it was before. -/
theorem optional?_map_emptyAsNull {read read' : Json → Option α}
    (h : ∀ v, read (emptyAsNull v) = read' v) (field : Option Json) :
    optional? read (field.map emptyAsNull) = optional? read' field := by
  cases field with
  | none => rfl
  | some v =>
    by_cases null : v = .null
    · rw [null]
      rfl
    · rw [Option.map_some, optional?_of_ne_null (emptyAsNull_ne_null null),
        optional?_of_ne_null null, h]

end Json

namespace EnterOptions

/-! ## Options -/

/-- The fields that choose among names. -/
def choices : List String := ["visualType", "searchRange", "searchDirection"]

/-- The members of an object leave each option unset or set it. There may be other members. -/
structure Described (members : List (String × Json)) (options : EnterOptions) : Prop where
  visualShape : Json.Sets (Json.Chooses VisualShape.names)
    (Json.member? "visualType" members) options.visualShape
  searchRange : Json.Sets (Json.Chooses SearchRange.names)
    (Json.member? "searchRange" members) options.searchRange
  searchDirection : Json.Sets (Json.Chooses SearchDirection.names)
    (Json.member? "searchDirection" members) options.searchDirection
  singleChar : Json.Sets (fun v b => v = .bool b)
    (Json.member? "singleChar" members) options.singleChar

theorem ofJson?_eq_some_iff {members : List (String × Json)} {options : EnterOptions} :
    ofJson? (.object members) = some options ↔ Described members options := by
  have read : ofJson? (.object members) = some options ↔
      Json.optional? (Json.choice? Json.isNull VisualShape.names)
        (Json.member? "visualType" members) = some options.visualShape ∧
      Json.optional? (Json.choice? Json.isNull SearchRange.names)
        (Json.member? "searchRange" members) = some options.searchRange ∧
      Json.optional? (Json.choice? Json.isNull SearchDirection.names)
        (Json.member? "searchDirection" members) = some options.searchDirection ∧
      Json.optional? Json.bool? (Json.member? "singleChar" members) = some options.singleChar := by
    obtain ⟨shape, range, direction, single⟩ := options
    simp [ofJson?, ofMembers?, ofFields?, Option.bind_eq_some_iff]
  rw [read, Json.optional?_eq_some_iff fun _ _ => Json.choice?_eq_some_iff,
    Json.optional?_eq_some_iff fun _ _ => Json.choice?_eq_some_iff,
    Json.optional?_eq_some_iff fun _ _ => Json.choice?_eq_some_iff,
    Json.optional?_eq_some_iff fun _ _ => Json.bool?_eq_some_iff]
  constructor
  · rintro ⟨shape, range, direction, single⟩
    exact ⟨shape, range, direction, single⟩
  · rintro ⟨shape, range, direction, single⟩
    exact ⟨shape, range, direction, single⟩

/-- The lenient reader takes empty objects for null and is as strict as the other one apart from that. -/
theorem ofMembers?_isNullOrEmpty (members : List (String × Json)) :
    ofMembers? Json.isNullOrEmpty members = ofJson? (.object (Json.emptiesAsNull members)) := by
  simp only [ofJson?, ofMembers?, ofFields?, Json.member?_emptiesAsNull,
    Json.optional?_map_emptyAsNull (Json.choice?_emptyAsNull _),
    Json.optional?_map_emptyAsNull Json.bool?_emptyAsNull]

/-- Only the fields that choose among names matter. -/
theorem ofJson?_emptiesAsNull {members : List (String × Json)}
    (h : ∀ field ∈ choices, ∀ name, Json.member? field members ≠ some (.object [(name, .object [])])) :
    ofJson? (.object (Json.emptiesAsNull members)) = ofJson? (.object members) := by
  have same (field : String) (hf : field ∈ choices) :
      Json.member? field (Json.emptiesAsNull members) = Json.member? field members := by
    rw [Json.member?_emptiesAsNull]
    cases hm : Json.member? field members with
    | none => rfl
    | some v =>
      rw [Option.map_some, Json.emptyAsNull_of_ne fun name hv => h field hf name (by rw [hm, hv])]
  have single : Json.optional? Json.bool? (Json.member? "singleChar" (Json.emptiesAsNull members)) =
      Json.optional? Json.bool? (Json.member? "singleChar" members) := by
    rw [Json.member?_emptiesAsNull, Json.optional?_map_emptyAsNull Json.bool?_emptyAsNull]
  simp only [ofJson?, ofMembers?, ofFields?, single, same "visualType" (by decide),
    same "searchRange" (by decide), same "searchDirection" (by decide)]

end EnterOptions

theorem Mode.ofName?_eq_some_iff {name : String} {mode : Mode} :
    Mode.ofName? name = some mode ↔ name = mode.name := by
  constructor
  · intro h
    unfold ofName? at h
    have found := List.find?_some h
    exact (of_decide_eq_true found).symm
  · rintro rfl
    cases mode <;> rfl

namespace Builtin

/-! ## Arguments -/

theorem namedMode?_eq_some_iff {args : Option Json} {request : ModeRequest} :
    namedMode? args = some request ↔ ∃ members, args = some (.object members) ∧
      Json.member? "mode" members = some (.string request.mode.name) ∧
      EnterOptions.ofJson? (.object (Json.emptiesAsNull members)) = some request.options := by
  constructor
  · intro h
    unfold namedMode? at h
    split at h
    · next members =>
      simp only [Option.bind_eq_bind, Option.bind_eq_some_iff, Option.some.injEq] at h
      obtain ⟨v, hv, name, hs, mode, hm, options, ho, rfl⟩ := h
      rw [Mode.ofName?_eq_some_iff] at hm
      refine ⟨members, rfl, ?_, ?_⟩
      · cases v with
        | string s =>
          cases hs
          rw [hv, hm]
        | _ => cases hs
      · rw [← EnterOptions.ofMembers?_isNullOrEmpty, ho]
    · cases h
  · rintro ⟨members, rfl, hm, ho⟩
    rw [← EnterOptions.ofMembers?_isNullOrEmpty] at ho
    have named : Mode.ofName? request.mode.name = some request.mode := Mode.ofName?_eq_some_iff.2 rfl
    simp [namedMode?, hm, Json.string?, named, ho]

theorem request_enterMode (args : Option Json) :
    request "modalex.enterMode" args = match namedMode? args with
      | some request => .ok (some request)
      | none => .error (.invalidArguments "modalex.enterMode") :=
  rfl

theorem request_enterMode_eq_ok_iff {args : Option Json} {request : ModeRequest} :
    Builtin.request "modalex.enterMode" args = .ok (some request) ↔
      ∃ members, args = some (.object members) ∧
        Json.member? "mode" members = some (.string request.mode.name) ∧
        EnterOptions.ofJson? (.object (Json.emptiesAsNull members)) = some request.options := by
  rw [request_enterMode, ← namedMode?_eq_some_iff]
  cases namedMode? args <;> simp

/-- What an object asks for does not depend on the order of its members. -/
theorem namedMode?_of_perm {members members' : List (String × Json)} (h : members.Perm members')
    (names : (members.map (·.1)).Nodup) :
    namedMode? (some (.object members')) = namedMode? (some (.object members)) := by
  have names' : (members'.map (·.1)).Nodup := (h.map _).nodup_iff.1 names
  have same (name : String) : Json.member? name members' = Json.member? name members := by
    ext v
    rw [Config.member?_eq_some_iff names', Config.member?_eq_some_iff names, h.mem_iff]
  simp only [namedMode?, EnterOptions.ofMembers?, same]

/-- The arguments of `enterMode` ask for a switch if they are an object whose member `mode` is the name of
a mode and which is read as options, once null has taken the place of an empty object beside a name.
Otherwise they are refused. Where there is no such empty object in a field that chooses among names, the
options are just those that the object is read as by itself. That is what its members describe, in any
order. -/
theorem enterMode_reads_options (args : Option Json) :
    (∀ request, Builtin.request "modalex.enterMode" args = .ok (some request) ↔
      ∃ members, args = some (.object members) ∧
        Json.member? "mode" members = some (.string request.mode.name) ∧
        EnterOptions.ofJson? (.object (Json.emptiesAsNull members)) = some request.options) ∧
    (Builtin.request "modalex.enterMode" args = .error (.invalidArguments "modalex.enterMode") ∨
      ∃ request, Builtin.request "modalex.enterMode" args = .ok (some request)) ∧
    ∀ members, args = some (.object members) →
      ((∀ field ∈ EnterOptions.choices, ∀ name,
          Json.member? field members ≠ some (.object [(name, .object [])])) →
        ∀ request, Builtin.request "modalex.enterMode" args = .ok (some request) ↔
          Json.member? "mode" members = some (.string request.mode.name) ∧
          EnterOptions.ofJson? (.object members) = some request.options) ∧
      (∀ options, EnterOptions.ofJson? (.object members) = some options ↔
        EnterOptions.Described members options) ∧
      ∀ members', members.Perm members' → (members.map (·.1)).Nodup →
        Builtin.request "modalex.enterMode" (some (.object members')) =
          Builtin.request "modalex.enterMode" args := by
  refine ⟨fun request => request_enterMode_eq_ok_iff, ?_, ?_⟩
  · rw [request_enterMode]
    cases namedMode? args with
    | none => exact Or.inl rfl
    | some request => exact Or.inr ⟨request, rfl⟩
  · rintro members rfl
    refine ⟨?_, fun options => EnterOptions.ofJson?_eq_some_iff, ?_⟩
    · intro plain request
      rw [request_enterMode_eq_ok_iff]
      constructor
      · rintro ⟨_, ⟨⟩, hm, ho⟩
        exact ⟨hm, by rwa [EnterOptions.ofJson?_emptiesAsNull plain] at ho⟩
      · rintro ⟨hm, ho⟩
        exact ⟨members, rfl, hm, by rwa [EnterOptions.ofJson?_emptiesAsNull plain]⟩
    · intro members' h names
      rw [request_enterMode, request_enterMode, namedMode?_of_perm h names]

/-- Some fields are null or unknown, another is an object for a name under which a shape is also known, and
there is an empty object where it does not matter. -/
theorem enterMode_reads_options_in_any_order :
    let members : List (String × Json) := [("searchRange", .null),
      ("visualType", .object [("normal", .null)]), ("note", .object [("line", .object [])]),
      ("mode", .string "visual"), ("singleChar", .bool true)]
    let request : ModeRequest := ⟨.visual, { visualShape := some .plain, singleChar := some true }⟩
    (∀ field ∈ EnterOptions.choices, ∀ name,
      Json.member? field members ≠ some (.object [(name, .object [])])) ∧
    members.Perm members.reverse ∧ (members.map (·.1)).Nodup ∧
    EnterOptions.Described members request.options ∧
    Builtin.request "modalex.enterMode" (some (.object members)) = .ok (some request) ∧
    Builtin.request "modalex.enterMode" (some (.object members.reverse)) = .ok (some request) := by
  intro members request
  have plain : ∀ field ∈ EnterOptions.choices, ∀ name,
      Json.member? field members ≠ some (.object [(name, .object [])]) := by
    simp [EnterOptions.choices, members, Json.member?]
  have names : (members.map (·.1)).Nodup := by decide
  obtain ⟨-, -, reads⟩ := enterMode_reads_options (some (.object members))
  obtain ⟨alone, described, order⟩ := reads members rfl
  have options : EnterOptions.ofJson? (.object members) = some request.options := rfl
  have asked := (alone plain request).2 ⟨rfl, options⟩
  exact ⟨plain, members.reverse_perm.symm, names, (described request.options).1 options, asked,
    (order members.reverse members.reverse_perm.symm names).trans asked⟩

/-- An empty object beside a name is no option by itself, but it is one beside the name of a mode. -/
theorem enterMode_accepts_empty_object :
    let members : List (String × Json) :=
      [("mode", .string "visual"), ("visualType", .object [("line", .object [])])]
    EnterOptions.ofJson? (.object members) = none ∧
    Builtin.request "modalex.enterMode" (some (.object members)) =
      .ok (some ⟨.visual, { visualShape := some .line }⟩) :=
  ⟨rfl, rfl⟩

end Builtin

end ModalKeys
