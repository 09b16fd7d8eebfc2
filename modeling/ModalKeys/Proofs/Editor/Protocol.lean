import ModalKeys.Host.Recording
import ModalKeys.Proofs.Editor.Operation

/-!
# The protocol of mode switches

The events of whole runs. The calls around a mode switch always come in threes, each switch starts
from the mode that the one before it ended in, and whoever is told the active mode in between is told
the mode of the last switch. Subscribers are sent the modes of the switches completed since they
subscribed. The host's state is what the recorded calls make of it, so no call is left out of the
record and none is put in.
-/

namespace ModalKeys

variable {σ : Type}

/-- The events lead from one mode to another by complete switches in a chain. Between switches, and
only there, the host and callbacks are dealt with, and are told the mode that is active. -/
inductive Protocol : Mode → List (Event σ) → Mode → Prop
  | done (mode : Mode) : Protocol mode [] mode
  | switch {source mode target : Mode} {options : EnterOptions} {events : List (Event σ)} :
      Protocol mode events target →
      Protocol source (.willLeave source :: .willEnter mode options :: .didEnter mode :: events)
        target
  | execute {mode target : Mode} {command : String} {args : Option Json} {events : List (Event σ)} :
      Protocol mode events target → Protocol mode (.execute mode command args :: events) target
  | search {mode target : Mode} {query : SearchQuery} {events : List (Event σ)} :
      Protocol mode events target → Protocol mode (.search mode query :: events) target
  | ask {mode target : Mode} {events : List (Event σ)} :
      Protocol mode events target → Protocol mode (.ask mode :: events) target
  | update {mode target : Mode} {step : σ → σ} {events : List (Event σ)} :
      Protocol mode events target → Protocol mode (.update step :: events) target

theorem Protocol.trans {a b c : Mode} {xs ys : List (Event σ)} (h₁ : Protocol a xs b)
    (h₂ : Protocol b ys c) : Protocol a (xs ++ ys) c := by
  induction h₁ with
  | done => exact h₂
  | switch _ ih => exact .switch (ih h₂)
  | execute _ ih => exact .execute (ih h₂)
  | search _ ih => exact .search (ih h₂)
  | ask _ ih => exact .ask (ih h₂)
  | update _ ih => exact .update (ih h₂)

/-- The mode at the end is the one entered last. -/
theorem Protocol.target_eq {source target : Mode} {events : List (Event σ)}
    (h : Protocol source events target) :
    target = (events.filterMap Event.entered?).getLastD source := by
  induction h with
  | done => rfl
  | @switch source mode target options events _ ih =>
      show target = (mode :: events.filterMap Event.entered?).getLastD source
      rw [List.getLastD_cons]
      exact ih
  | execute _ ih => exact ih
  | search _ ih => exact ih
  | ask _ ih => exact ih
  | update _ ih => exact ih

/-! ## Subscribers -/

namespace Subscriber

/-- Sends several modes, one after the other. -/
def notifyAll (subscribers : List Subscriber) (modes : List Mode) : List Subscriber :=
  modes.foldl (fun subscribers mode => notify mode subscribers) subscribers

theorem notifyAll_append (subscribers : List Subscriber) (xs ys : List Mode) :
    notifyAll subscribers (xs ++ ys) = notifyAll (notifyAll subscribers xs) ys :=
  List.foldl_append

theorem filter_notify (mode : Mode) (ticket : Nat) (subscribers : List Subscriber) :
    (notify mode subscribers).filter (·.ticket = ticket) =
      notify mode (subscribers.filter (·.ticket = ticket)) := by
  unfold notify
  rw [List.filter_map, List.filter_filter, List.filter_filter]
  simp only [Function.comp_def, Bool.and_comm]

/-- What a subscriber is sent does not depend on who else there is. -/
theorem filter_notifyAll (modes : List Mode) (ticket : Nat) (subscribers : List Subscriber) :
    (notifyAll subscribers modes).filter (·.ticket = ticket) =
      notifyAll (subscribers.filter (·.ticket = ticket)) modes := by
  induction modes generalizing subscribers with
  | nil => rfl
  | cons mode rest ih =>
      have h := ih (notify mode subscribers)
      rwa [filter_notify] at h

theorem notifyAll_listening (modes : List Mode) (ticket : Nat) (unread : List Mode) :
    notifyAll [⟨ticket, true, unread⟩] modes = [⟨ticket, true, modes.reverse ++ unread⟩] := by
  induction modes generalizing unread with
  | nil => rfl
  | cons mode rest ih =>
      have h := ih (mode :: unread)
      rwa [List.append_cons, ← List.reverse_cons] at h

theorem forall_ticket_notifyAll {P : Nat → Prop} {subscribers : List Subscriber}
    (h : ∀ sub ∈ subscribers, P sub.ticket) (modes : List Mode) :
    ∀ sub ∈ notifyAll subscribers modes, P sub.ticket := by
  induction modes generalizing subscribers with
  | nil => exact h
  | cons mode rest ih =>
      refine ih ?_
      intro sub hsub
      obtain ⟨old, hold, rfl⟩ := List.mem_map.1 hsub
      exact h old (List.mem_filter.1 hold).1

end Subscriber

/-- Whether an operation leaves the list of subscribers to the editor. -/
def Operation.Unheard : Operation σ → Prop
  | .subscribe => False
  | .unsubscribe _ => False
  | .receive _ => False
  | _ => True

theorem Operation.unheard_or (op : Operation σ) : op.Unheard ∨ op = .subscribe ∨
    (∃ ticket, op = .unsubscribe ticket) ∨ ∃ ticket, op = .receive ticket := by
  cases op with
  | subscribe => exact Or.inr (Or.inl rfl)
  | unsubscribe ticket => exact Or.inr (Or.inr (Or.inl ⟨ticket, rfl⟩))
  | receive ticket => exact Or.inr (Or.inr (Or.inr ⟨ticket, rfl⟩))
  | _ => exact Or.inl trivial

namespace Editor

/-! ## The events of runs -/

/-- The events when a key is typed or the clock is looked at. -/
def inputEvents (e : Editor σ) (input : TimedInput) : List (Event σ) :=
  match e.taken input with
  | (_, none) => []
  | (e', some r) => e'.resolveEvents e.mode r

/-- The events of an operation. -/
def operationEvents (e : Editor σ) : Operation σ → List (Event σ)
  | .inputKey key now => e.inputEvents (.typed key now)
  | .checkTimeout now => e.inputEvents (.check now)
  | .enterMode mode options => Event.switch e.mode ⟨mode, options⟩
  | .enterModeNamed name options =>
    match Mode.ofName? name with
    | some mode => Event.switch e.mode ⟨mode, options⟩
    | none => []
  | .changeState change => [.update change]
  | _ => []

/-- The events of operations in a row. -/
def runEvents (e : Editor σ) : List (Operation σ) → List (Event σ)
  | [] => []
  | op :: rest => e.operationEvents op ++ (e.apply op).runEvents rest

theorem runEvents_append (e : Editor σ) (xs ys : List (Operation σ)) :
    e.runEvents (xs ++ ys) = e.runEvents xs ++ (e.run xs).runEvents ys := by
  induction xs generalizing e with
  | nil => rfl
  | cons op rest ih =>
      show e.operationEvents op ++ (e.apply op).runEvents (rest ++ ys) = _
      rw [ih (e.apply op), ← List.append_assoc]
      rfl

/-! ## Accounting for events -/

/-- The events account for what has become of an editor: for its mode, and for the state of its
host. -/
structure Accounted (e : Editor σ) (events : List (Event σ)) (e' : Editor σ) : Prop where
  host : e'.host = e.host
  state : e'.state = Event.replay e.host e.state events
  protocol : Protocol e.mode events e'.mode

/-- They account for its subscribers as well, none of which has come, gone or looked. -/
structure Delivered (e : Editor σ) (events : List (Event σ)) (e' : Editor σ) : Prop
    extends Accounted e events e' where
  subscribers : e'.subscribers =
    Subscriber.notifyAll e.subscribers (events.filterMap Event.entered?)
  nextTicket : e'.nextTicket = e.nextTicket

theorem Accounted.trans {e₁ e₂ e₃ : Editor σ} {xs ys : List (Event σ)} (h₁ : Accounted e₁ xs e₂)
    (h₂ : Accounted e₂ ys e₃) : Accounted e₁ (xs ++ ys) e₃ where
  host := by rw [h₂.host, h₁.host]
  state := by rw [Event.replay_append, h₂.state, h₁.host, h₁.state]
  protocol := h₁.protocol.trans h₂.protocol

theorem Delivered.trans {e₁ e₂ e₃ : Editor σ} {xs ys : List (Event σ)} (h₁ : Delivered e₁ xs e₂)
    (h₂ : Delivered e₂ ys e₃) : Delivered e₁ (xs ++ ys) e₃ where
  toAccounted := h₁.toAccounted.trans h₂.toAccounted
  subscribers := by
    rw [h₂.subscribers, h₁.subscribers, List.filterMap_append, Subscriber.notifyAll_append]
  nextTicket := by rw [h₂.nextTicket, h₁.nextTicket]

theorem Delivered.refl (e : Editor σ) : Delivered e [] e := ⟨⟨rfl, rfl, .done _⟩, rfl, rfl⟩

/-- Keymaps are nobody's business outside. -/
theorem Delivered.withStore {e e' : Editor σ} {events : List (Event σ)} (h : Delivered e events e')
    (s : Store (Action σ)) : Delivered e events { e' with store := s } :=
  ⟨⟨h.host, h.state, h.protocol⟩, h.subscribers, h.nextTicket⟩

/-- Nor are changes of single modals. -/
theorem Delivered.modify {e e' : Editor σ} {events : List (Event σ)} (h : Delivered e events e')
    (mode : Mode) (f : Modal σ → Modal σ) : Delivered e events (e'.modify mode f) where
  host := by rw [host_modify, h.host]
  state := by rw [state_modify, h.state]
  protocol := by rw [mode_modify]; exact h.protocol
  subscribers := by rw [subscribers_modify, h.subscribers]
  nextTicket := by rw [nextTicket_modify, h.nextTicket]

theorem Ran.protocol {e e' : Editor σ} {events : List (Event σ)} (h : Ran e events e') :
    Protocol e.mode events e'.mode := by
  induction h with
  | done => exact .done _
  | execute _ ih => exact .execute ih
  | search _ ih => exact .search ih
  | ask _ ih => exact .ask ih
  | update _ ih => exact .update ih
  | switch _ ih =>
      rw [mode_transition] at ih
      exact .switch ih

theorem Ran.subscribers_eq {e e' : Editor σ} {events : List (Event σ)} (h : Ran e events e') :
    e'.subscribers = Subscriber.notifyAll e.subscribers (events.filterMap Event.entered?) := by
  induction h with
  | done => rfl
  | execute _ ih => exact ih
  | search _ ih => exact ih
  | ask _ ih => exact ih
  | update _ ih => exact ih
  | switch _ ih =>
      rw [subscribers_transition] at ih
      exact ih

theorem Ran.delivered {e e' : Editor σ} {events : List (Event σ)} (h : Ran e events e') :
    Delivered e events e' :=
  ⟨⟨h.host_eq, h.state_eq, h.protocol⟩, h.subscribers_eq, h.nextTicket_eq⟩

theorem delivered_resolve (e : Editor σ) (source : Mode) (r : Resolution σ) :
    Delivered e (e.resolveEvents source r) (e.resolve source r).1 := by
  cases r with
  | pending => exact .refl e
  | unhandled => exact (Delivered.refl e).modify source Modal.reset
  | run action =>
      have h := ran_exec (e.modal source).name (e.modal source).keySeq e action
      exact h.delivered.modify source Modal.reset
  | search query => exact (ran_runSearch e query).delivered

theorem delivered_input (e : Editor σ) (input : TimedInput) :
    Delivered e (e.inputEvents input) (e.apply input.operation) := by
  rw [inputEvents, apply_input]
  have h : Delivered e [] (e.taken input).1 := by
    cases input with
    | typed key now =>
        exact (Delivered.refl e).modify e.mode fun _ => ((e.modal e.mode).onKey e.store key now).1
    | check now =>
        rcases e.taken_check_cases now with he | ⟨matcher, _, he⟩
        · rw [he]
          exact .refl e
        · rw [he]
          exact (Delivered.refl e).modify e.mode (Modal.mapMatcher · Matcher.reset)
  generalize e.taken input = reply at h ⊢
  rcases reply with ⟨e', _ | r⟩
  · exact .refl e
  · exact (h.trans (delivered_resolve e' e.mode r)).withStore _

theorem delivered_resetModals (e : Editor σ) : Delivered e [] e.resetModals :=
  ⟨⟨rfl, rfl, .done _⟩, rfl, rfl⟩

/-- Every operation is accounted for, and only those on subscribers change who they are. -/
theorem delivered_apply (e : Editor σ) {op : Operation σ} (hop : op.Unheard) :
    Delivered e (e.operationEvents op) (e.apply op) := by
  have quiet := Delivered.refl e
  have store : ∀ (x : Editor σ) s, Delivered e [] x → Delivered e [] { x with store := s } :=
    fun x s hx => hx.withStore s
  have update : ∀ (x : Editor σ) mode f, Delivered e [] x → Delivered e [] (x.update mode f) :=
    fun x mode f hx => (hx.modify mode f).withStore _
  have updateKeymap : ∀ (x : Editor σ) mode km, Delivered e [] x →
      Delivered e [] (x.updateKeymap mode km) :=
    fun x mode km hx => ((hx.withStore _).modify mode _).withStore _
  have clearKeymap : ∀ (x : Editor σ) mode, Delivered e [] x →
      Delivered e [] (x.clearKeymap mode) :=
    fun x mode hx => ((hx.withStore _).modify mode _).withStore _
  cases op with
  | inputKey key now => exact delivered_input e (.typed key now)
  | checkTimeout now => exact delivered_input e (.check now)
  | enterMode mode options => exact (ran_switch e ⟨mode, options⟩).delivered.withStore _
  | enterModeNamed name options =>
      rw [operationEvents, apply, enterModeNamed]
      cases Mode.ofName? name with
      | none => exact quiet
      | some mode => exact (ran_switch e ⟨mode, options⟩).delivered.withStore _
  | resetCurrent => exact update e e.mode Modal.reset quiet
  | resetAll => exact (delivered_resetModals e).withStore _
  | clearKeymaps => exact clearKeymaps_preserves clearKeymap quiet
  | updateKeymaps layers => exact mergeLayer_preserves store updateKeymap _ layers quiet
  | applyPreset preset => exact mergeLayers_preserves store updateKeymap _ quiet
  | updateFromSettings settings =>
      exact updateFromSettings_preserves store updateKeymap clearKeymap
        (fun x mode wait => update x mode (Modal.setWait · wait)) settings quiet
  | setKeymap mode root => exact update e mode (Modal.setKeymap · root) quiet
  | updateKeymap mode layer => exact updateKeymap e mode layer quiet
  | clearKeymap mode => exact clearKeymap e mode quiet
  | setWait mode wait => exact update e mode (Modal.setWait · wait) quiet
  | setDefaultHandler mode action => exact update e mode (Modal.setDefaultHandler · action) quiet
  | setTimeoutHandler mode action => exact update e mode (Modal.setTimeoutHandler · action) quiet
  | changeModal mode change => exact update e mode change quiet
  | changeStore change => exact quiet.withStore _
  | changeState change => exact ⟨⟨rfl, rfl, .update (.done _)⟩, rfl, rfl⟩
  | subscribe => exact hop.elim
  | unsubscribe ticket => exact hop.elim
  | receive ticket => exact hop.elim

theorem accounted_apply (e : Editor σ) (op : Operation σ) :
    Accounted e (e.operationEvents op) (e.apply op) := by
  rcases op.unheard_or with h | rfl | ⟨ticket, rfl⟩ | ⟨ticket, rfl⟩
  · exact (delivered_apply e h).toAccounted
  · exact ⟨rfl, rfl, .done _⟩
  · exact ⟨rfl, rfl, .done _⟩
  · exact ⟨rfl, rfl, .done _⟩

theorem accounted_run (e : Editor σ) (ops : List (Operation σ)) :
    Accounted e (e.runEvents ops) (e.run ops) := by
  induction ops generalizing e with
  | nil => exact (Delivered.refl e).toAccounted
  | cons op rest ih => exact (accounted_apply e op).trans (ih (e.apply op))

/-! ## What subscribers are sent -/

/-- The tickets in use have all been given out before, so that the next one is new. -/
def Ticketed (e : Editor σ) : Prop := ∀ sub ∈ e.subscribers, sub.ticket < e.nextTicket

theorem Ticketed.apply {e : Editor σ} (h : e.Ticketed) (op : Operation σ) :
    (e.apply op).Ticketed := by
  have map : ∀ f : Subscriber → Subscriber, (∀ sub, (f sub).ticket = sub.ticket) →
      ∀ sub ∈ e.subscribers.map f, sub.ticket < e.nextTicket := by
    intro f hf sub hsub
    obtain ⟨old, hold, rfl⟩ := List.mem_map.1 hsub
    rw [hf]
    exact h old hold
  rcases op.unheard_or with hop | rfl | ⟨ticket, rfl⟩ | ⟨ticket, rfl⟩
  · have hd := delivered_apply e hop
    rw [Ticketed, hd.subscribers, hd.nextTicket]
    exact Subscriber.forall_ticket_notifyAll (P := (· < e.nextTicket)) h _
  · intro sub hsub
    rcases List.mem_append.1 hsub with hold | hnew
    · exact Nat.lt_succ_of_lt (h sub hold)
    · rw [List.mem_singleton.1 hnew]
      exact Nat.lt_succ_self _
  · exact map _ (fun sub => by split <;> rfl)
  · exact map _ (fun sub => by split <;> rfl)

theorem Ticketed.run {e : Editor σ} (h : e.Ticketed) (ops : List (Operation σ)) :
    (e.run ops).Ticketed := by
  induction ops generalizing e with
  | nil => exact h
  | cons op rest ih => exact ih (h.apply op)

/-- The ticket is that of one subscriber, which listens and has not looked at some modes yet. -/
structure Listening (e : Editor σ) (ticket : Nat) (unread : List Mode) : Prop where
  subscriber : e.subscribers.filter (·.ticket = ticket) = [⟨ticket, true, unread⟩]
  used : ticket < e.nextTicket

theorem subscribers_subscribe (e : Editor σ) :
    e.subscribe.2.subscribers = e.subscribers ++ [⟨e.nextTicket, true, []⟩] := rfl

theorem Ticketed.listening_subscribe {e : Editor σ} (h : e.Ticketed) :
    e.subscribe.2.Listening e.subscribe.1 [] := by
  refine ⟨?_, Nat.lt_succ_self _⟩
  have fresh : e.subscribers.filter (·.ticket = e.nextTicket) = [] := by
    rw [List.filter_eq_nil_iff]
    intro sub hsub
    have := h sub hsub
    simp only [decide_eq_true_eq]
    omega
  rw [subscribers_subscribe, List.filter_append, show e.subscribe.1 = e.nextTicket from rfl, fresh]
  simp

theorem Listening.receive_eq {e : Editor σ} {ticket : Nat} {unread : List Mode}
    (h : e.Listening ticket unread) : (e.receive ticket).1 = unread.reverse := by
  rw [receive, h.subscriber]
  simp

/-- Changing each subscriber by itself changes the one with the ticket as `g` does. -/
theorem Listening.map {e e' : Editor σ} {ticket : Nat} {unread unread' : List Mode}
    (h : e.Listening ticket unread) (g : Subscriber → Subscriber)
    (hg : ∀ sub, (g sub).ticket = sub.ticket) (hs : e'.subscribers = e.subscribers.map g)
    (hn : e'.nextTicket = e.nextTicket) (hu : g ⟨ticket, true, unread⟩ = ⟨ticket, true, unread'⟩) :
    e'.Listening ticket unread' where
  subscriber := by
    have hf : ((fun sub : Subscriber => decide (sub.ticket = ticket)) ∘ g) =
        fun sub => decide (sub.ticket = ticket) := by
      funext sub
      simp [hg]
    rw [hs, List.filter_map, hf, h.subscriber, List.map_singleton, hu]
  used := by
    rw [hn]
    exact h.used

/-- Nothing is left for a subscriber that has looked. -/
theorem Listening.look {e : Editor σ} {ticket : Nat} {unread : List Mode}
    (h : e.Listening ticket unread) : (e.receive ticket).2.Listening ticket [] :=
  h.map _ (fun sub => by split <;> rfl) rfl rfl (if_pos rfl)

/-- What a subscriber gets from an operation: everything that is left for it, if it looks. -/
def received (e : Editor σ) (ticket : Nat) : Operation σ → List Mode
  | .receive other => if other = ticket then (e.receive ticket).1 else []
  | _ => []

/-- What a subscriber is sent: all that it gets in the course of a run, and what is left then. -/
def sentTo (ticket : Nat) (e : Editor σ) : List (Operation σ) → List Mode
  | [] => (e.receive ticket).1
  | op :: rest => e.received ticket op ++ sentTo ticket (e.apply op) rest

/-- The modes that an operation enters are left for a subscriber that does not look. -/
theorem Listening.hear {e : Editor σ} {ticket : Nat} {unread : List Mode}
    (h : e.Listening ticket unread) {op : Operation σ} (hop : op.Unheard) :
    (e.apply op).Listening ticket
      (((e.operationEvents op).filterMap Event.entered?).reverse ++ unread) where
  subscriber := by
    rw [(delivered_apply e hop).subscribers, Subscriber.filter_notifyAll, h.subscriber,
      Subscriber.notifyAll_listening]
  used := by
    rw [(delivered_apply e hop).nextTicket]
    exact h.used

/-- One operation. What the subscriber gets and what is left for it then are, in order, what was left
for it and the modes that are entered. -/
theorem Listening.apply {e : Editor σ} {ticket : Nat} {unread : List Mode}
    (h : e.Listening ticket unread) (op : Operation σ) (hop : op ≠ .unsubscribe ticket) :
    ∃ unread', (e.apply op).Listening ticket unread' ∧
      e.received ticket op ++ unread'.reverse =
        unread.reverse ++ (e.operationEvents op).filterMap Event.entered? := by
  rcases op.unheard_or with hu | rfl | ⟨other, rfl⟩ | ⟨other, rfl⟩
  · refine ⟨_, h.hear hu, ?_⟩
    have hr : e.received ticket op = [] := by cases op <;> first | rfl | exact hu.elim
    rw [hr]
    simp
  · -- the ticket of a new subscriber is another one
    refine ⟨unread, ⟨?_, Nat.lt_succ_of_lt h.used⟩, ?_⟩
    · rw [Editor.apply, subscribers_subscribe, List.filter_append, h.subscriber]
      simp [Nat.ne_of_gt h.used]
    · simp [received, operationEvents]
  · have hne : ¬ticket = other := fun he => hop (by rw [he])
    refine ⟨unread, h.map _ (fun sub => by split <;> rfl) rfl rfl (if_neg hne), ?_⟩
    simp [received, operationEvents]
  · by_cases he : other = ticket
    · subst he
      refine ⟨[], h.look, ?_⟩
      simp [received, operationEvents, h.receive_eq]
    · refine ⟨unread, h.map _ (fun sub => by split <;> rfl) rfl rfl (if_neg (Ne.symm he)), ?_⟩
      simp [received, operationEvents, he]

/-- Nothing is lost, repeated or put out of order between an editor and a subscriber that stays. -/
theorem Listening.sentTo_eq {e : Editor σ} {ticket : Nat} {unread : List Mode}
    (h : e.Listening ticket unread) {ops : List (Operation σ)} (hops : .unsubscribe ticket ∉ ops) :
    sentTo ticket e ops = unread.reverse ++ (e.runEvents ops).filterMap Event.entered? := by
  induction ops generalizing e unread with
  | nil => simp [sentTo, runEvents, h.receive_eq]
  | cons op rest ih =>
      rw [List.mem_cons, not_or] at hops
      obtain ⟨unread', h', he⟩ := h.apply op (Ne.symm hops.1)
      rw [sentTo, ih h' hops.2, ← List.append_assoc, he, runEvents, List.filterMap_append,
        List.append_assoc]

/-- Mode switches in every run from a new editor. The calls that the state of the host is made of
are complete switches in a chain from Normal mode to the active one; no call comes in between the
three calls of a switch, and each call between switches is told the mode that the last one entered.
Whoever subscribes and stays is sent the modes entered from then on, each once and in order. -/
theorem protocol_run_create (host : Host σ) (state : σ) (ops : List (Operation σ)) :
    ((create host state).run ops).state =
      Event.replay host state ((create host state).runEvents ops) ∧
    Protocol .normal ((create host state).runEvents ops) ((create host state).run ops).mode ∧
    ((create host state).run ops).mode =
      (((create host state).runEvents ops).filterMap Event.entered?).getLastD .normal ∧
    ∀ before after, ops = before ++ .subscribe :: after →
      ∀ ticket e, ((create host state).run before).subscribe = (ticket, e) →
        .unsubscribe ticket ∉ after →
        (create host state).runEvents ops =
          (create host state).runEvents before ++ e.runEvents after ∧
        sentTo ticket e after = (e.runEvents after).filterMap Event.entered? := by
  have h := accounted_run (create host state) ops
  refine ⟨h.state, h.protocol, h.protocol.target_eq, ?_⟩
  intro before after hops ticket e hs hu
  have ticketed : (create host state).Ticketed := fun sub hsub => by cases hsub
  have listening := (ticketed.run before).listening_subscribe
  rw [hs] at listening
  constructor
  · rw [hops, runEvents_append]
    show _ = _ ++ Editor.runEvents (ticket, e).2 after
    rw [← hs]
    rfl
  · exact listening.sentTo_eq hu

/-- A callback fails after it has switched modes and has run a command that asks for a switch. The
second subscriber hears of both, although the first one has gone. -/
theorem protocol_run_create_after_failure :
    let host := Host.recorder [("save", [.enter .search {}, .fail (.failed "disk")])] []
    let before : List (Operation Record) := [.subscribe, .enterMode .insert {}]
    let after : List (Operation Record) := [.unsubscribe 0,
      .setDefaultHandler .insert (some (.callback (CallbackStep.script · [.note .null,
        .enter .visual {}, .execute "save" none false, .enter .insert {}]))),
      .inputKey 'q' 0, .enterModeNamed "normal" {}]
    let e := (create host []).run (before ++ [.subscribe])
    ((create host []).run before).subscribe = (1, e) ∧ .unsubscribe 1 ∉ after ∧
      sentTo 1 e after = [.visual, .search, .normal] := by
  intro host before after e
  have stays : .unsubscribe 1 ∉ after := by simp [after]
  obtain ⟨_, _, _, subscribed⟩ := protocol_run_create host [] (before ++ .subscribe :: after)
  obtain ⟨_, sent⟩ := subscribed before after rfl 1 e rfl stays
  refine ⟨rfl, stays, ?_⟩
  rw [sent]
  decide +kernel

end Editor

end ModalKeys
