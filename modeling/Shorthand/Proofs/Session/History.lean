import Shorthand.Session

/-! # What a session remembers

Each entry of the history holds the expansion of its abbreviation, and the selection leads to an entry. An
event adds the entry that it commits to the history, if there is one, and nothing else. Main statement:
`run_sound`. -/

namespace Shorthand.Session

/-- The selection leads to an entry, and every entry holds the expansion of its abbreviation. -/
structure Sound (s : Session) : Prop where
  selected_lt : ∀ index, s.selected = some index → index < s.history.length
  expansion : ∀ entry ∈ s.history, s.expander.expand entry.abbreviation = .ok entry.markup

/-- The event is a press of a key that commits the input. -/
def asksToCommit (event : KeyEvent) : Bool :=
  event.action == .press && (event.code == .enter || event.code == .tab)

/-- The entry that an event commits: the input with its expansion, if the event asks for it and the input
has one. -/
def committed? (s : Session) (event : KeyEvent) : Option HistoryEntry :=
  if asksToCommit event then s.preview.toOption.map fun markup => ⟨s.input, markup⟩ else none

/-- What comes of a session by an event, as far as the history is concerned. -/
structure Answers (s : Session) (event : KeyEvent) (after : Session) : Prop where
  expander : after.expander = s.expander
  /-- The entries that were there stay, and the one that is committed comes last. -/
  history : after.history = s.history ++ (committed? s event).toList
  cleared : (committed? s event).isSome = true → after.input = [] ∧ after.selected = none
  /-- A commit of input without an expansion, an event that is no press and one that ends the session
  change nothing. -/
  kept : (asksToCommit event = true ∧ committed? s event = none) ∨ event.action ≠ .press ∨
    quits event = true → after = s

/-! ## Operations -/

@[simp] theorem select_expander (index : Nat) (s : Session) : (s.select index).expander = s.expander := rfl

@[simp] theorem select_history (index : Nat) (s : Session) : (s.select index).history = s.history := rfl

@[simp] theorem select_selected (index : Nat) (s : Session) : (s.select index).selected = some index := rfl

@[simp] theorem previous_expander (s : Session) : s.previous.expander = s.expander := by
  unfold previous
  repeat' split
  all_goals simp

@[simp] theorem previous_history (s : Session) : s.previous.history = s.history := by
  unfold previous
  repeat' split
  all_goals simp

@[simp] theorem next_expander (s : Session) : s.next.expander = s.expander := by
  unfold next
  repeat' split
  all_goals simp

@[simp] theorem next_history (s : Session) : s.next.history = s.history := by
  unfold next
  repeat' split
  all_goals simp

theorem commit_of_ok {s : Session} {markup : Text} (h : s.preview = .ok markup) : s.commit =
    { s with input := [], history := s.history ++ [⟨s.input, markup⟩], selected := none } := by
  rw [commit, h]

theorem commit_of_not_ok {s : Session} (h : s.preview.toOption = none) : s.commit = s := by
  rw [commit]
  cases hp : s.preview with
  | ok markup => simp [hp, Attempt.toOption] at h
  | error e => rfl
  | aborted => rfl

/-- What an event does: it is passed over, it asks for a commit, or it moves about without touching the
history. -/
theorem handle_cases (s : Session) (event : KeyEvent) :
    ((event.action ≠ .press ∨ quits event = true) ∧ asksToCommit event = false ∧ s.handle event = s) ∨
    (asksToCommit event = true ∧ event.action = .press ∧ quits event = false ∧
      s.handle event = s.commit) ∨
    (asksToCommit event = false ∧ event.action = .press ∧ quits event = false ∧
      (s.handle event = s.previous ∨ s.handle event = s.next ∨
        ∃ input, s.handle event = { s with input })) := by
  obtain ⟨code, control, action⟩ := event
  cases action with
  | hold => exact .inl ⟨by simp, rfl, rfl⟩
  | release => exact .inl ⟨by simp, rfl, rfl⟩
  | press =>
    cases code with
    | escape => exact .inl ⟨by simp [quits], rfl, rfl⟩
    | enter => exact .inr (.inl ⟨rfl, rfl, rfl, rfl⟩)
    | tab => exact .inr (.inl ⟨rfl, rfl, rfl, rfl⟩)
    | up => exact .inr (.inr ⟨rfl, rfl, rfl, .inl rfl⟩)
    | down => exact .inr (.inr ⟨rfl, rfl, rfl, .inr (.inl rfl)⟩)
    | backspace => exact .inr (.inr ⟨rfl, rfl, rfl, .inr (.inr ⟨_, rfl⟩)⟩)
    | other => exact .inr (.inr ⟨rfl, rfl, rfl, .inr (.inr ⟨_, rfl⟩)⟩)
    | char c =>
      by_cases hquits : quits ⟨.char c, control, .press⟩ = true
      · exact .inl ⟨.inr hquits, rfl, by simp [handle, hquits]⟩
      · rw [Bool.not_eq_true] at hquits
        exact .inr (.inr ⟨rfl, rfl, hquits, .inr (.inr ⟨_, by simp [handle, hquits]; rfl⟩)⟩)

theorem committed?_of_not_asks {s : Session} {event : KeyEvent} (h : asksToCommit event = false) :
    committed? s event = none := by
  simp [committed?, h]

/-! ## One event -/

/-- An event that asks for no commit and is not passed over leaves what is remembered as it is. -/
theorem answers_of_same {s after : Session} {event : KeyEvent} (hasks : asksToCommit event = false)
    (hpress : event.action = .press) (hquits : quits event = false)
    (hexpander : after.expander = s.expander) (hhistory : after.history = s.history) :
    Answers s event after where
  expander := hexpander
  history := by simp [committed?_of_not_asks hasks, hhistory]
  cleared := by simp [committed?_of_not_asks hasks]
  kept := by simp [hasks, hpress, hquits]

theorem answers_commit {s : Session} {event : KeyEvent} (hasks : asksToCommit event = true)
    (hpress : event.action = .press) (hquits : quits event = false) : Answers s event s.commit := by
  cases hp : s.preview.toOption with
  | some markup =>
    have hentry : committed? s event = some ⟨s.input, markup⟩ := by simp [committed?, hasks, hp]
    rw [commit_of_ok (Attempt.toOption_eq_some_iff.1 hp)]
    exact {
      expander := rfl
      history := by simp [hentry]
      cleared := fun _ => ⟨rfl, rfl⟩
      kept := by simp [hentry, hpress, hquits] }
  | none =>
    have hentry : committed? s event = none := by simp [committed?, hasks, hp]
    rw [commit_of_not_ok hp]
    exact {
      expander := rfl
      history := by simp [hentry]
      cleared := by simp [hentry]
      kept := fun _ => rfl }

/-- Every event commits what it asks for and touches nothing else that is remembered. -/
theorem answers_handle (s : Session) (event : KeyEvent) : Answers s event (s.handle event) := by
  rcases handle_cases s event with ⟨-, hasks, heq⟩ | ⟨hasks, hpress, hquits, heq⟩ |
    ⟨hasks, hpress, hquits, heq | heq | ⟨input, heq⟩⟩
  · rw [heq]
    exact {
      expander := rfl
      history := by simp [committed?_of_not_asks hasks]
      cleared := by simp [committed?_of_not_asks hasks]
      kept := fun _ => rfl }
  · rw [heq]
    exact answers_commit hasks hpress hquits
  · rw [heq]
    exact answers_of_same hasks hpress hquits s.previous_expander s.previous_history
  · rw [heq]
    exact answers_of_same hasks hpress hquits s.next_expander s.next_history
  · rw [heq]
    exact answers_of_same hasks hpress hquits rfl rfl

/-! ## The invariant -/

theorem Sound.previous {s : Session} (h : Sound s) : Sound s.previous where
  selected_lt := by
    intro index hindex
    rw [previous_history]
    unfold Session.previous at hindex
    split at hindex
    · exact h.selected_lt index hindex
    · rename_i hne
      have hpos : 0 < s.history.length := List.length_pos_iff.2 (by simpa using hne)
      split at hindex
      · rw [select_selected] at hindex
        cases hindex
        omega
      · rename_i old hold
        have := h.selected_lt old hold
        rw [select_selected] at hindex
        cases hindex
        omega
  expansion := by
    rw [previous_history, previous_expander]
    exact h.expansion

theorem Sound.next {s : Session} (h : Sound s) : Sound s.next where
  selected_lt := by
    intro index hindex
    rw [next_history]
    unfold Session.next at hindex
    split at hindex
    · rename_i hnone
      rw [hnone] at hindex
      cases hindex
    · split at hindex
      · rename_i hlt
        rw [select_selected] at hindex
        cases hindex
        exact hlt
      · cases hindex
  expansion := by
    rw [next_history, next_expander]
    exact h.expansion

theorem Sound.commit {s : Session} (h : Sound s) : Sound s.commit := by
  cases hp : s.preview.toOption with
  | some markup =>
    have hok := Attempt.toOption_eq_some_iff.1 hp
    rw [commit_of_ok hok]
    refine ⟨nofun, fun entry hentry => ?_⟩
    rcases List.mem_append.1 hentry with hentry | hentry
    · exact h.expansion entry hentry
    · rw [List.mem_singleton.1 hentry]
      exact hok
  | none =>
    rw [commit_of_not_ok hp]
    exact h

theorem Sound.handle {s : Session} (h : Sound s) (event : KeyEvent) : Sound (s.handle event) := by
  rcases handle_cases s event with ⟨-, -, heq⟩ | ⟨-, -, -, heq⟩ | ⟨-, -, -, heq | heq | ⟨input, heq⟩⟩
  · rwa [heq]
  · rw [heq]
    exact h.commit
  · rw [heq]
    exact h.previous
  · rw [heq]
    exact h.next
  · rw [heq]
    exact ⟨h.selected_lt, h.expansion⟩

theorem Sound.run {s : Session} (h : Sound s) (events : List KeyEvent) : Sound (s.run events) := by
  induction events generalizing s with
  | nil => exact h
  | cons event events ih => exact ih (h.handle event)

theorem expander_run (s : Session) (events : List KeyEvent) : (s.run events).expander = s.expander := by
  induction events generalizing s with
  | nil => rfl
  | cons event events ih => exact (ih _).trans (answers_handle s event).expander

end Shorthand.Session
