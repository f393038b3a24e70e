import Shorthand.Proofs.Session.History

/-! # Stepping through the history

The entries of the history and the empty input behind the newest one are the places to step to. Stepping
back goes to the place before and stays at the oldest entry; stepping on goes to the place after and stays
behind the newest. Main statement: where any number of steps back and then of steps on leads
(`run_steps`). -/

namespace Shorthand

/-- The event is a press of a key, whatever is held with it. -/
structure KeyEvent.Presses (code : KeyCode) (event : KeyEvent) : Prop where
  code_eq : event.code = code
  press : event.action = .press

theorem KeyEvent.Presses.not_asks {code : KeyCode} {event : KeyEvent} (h : event.Presses code)
    (hcode : code = .up ∨ code = .down) : Session.asksToCommit event = false := by
  rw [Session.asksToCommit, h.code_eq]
  rcases hcode with rfl | rfl <;> exact Bool.and_false _

namespace Session

/-- The session is at a place of its history: at an entry, with its abbreviation for input, or behind the
newest one, with no input. -/
structure At (place : Nat) (s : Session) : Prop where
  entry : ∀ h : place < s.history.length,
    s.selected = some place ∧ s.input = s.history[place].abbreviation
  behind : s.history.length ≤ place → s.selected = none ∧ s.input = []

theorem handle_up {s : Session} {event : KeyEvent} (h : event.Presses .up) :
    s.handle event = s.previous := by
  obtain ⟨code, control, action⟩ := event
  obtain ⟨rfl, rfl⟩ := h
  rfl

theorem handle_down {s : Session} {event : KeyEvent} (h : event.Presses .down) :
    s.handle event = s.next := by
  obtain ⟨code, control, action⟩ := event
  obtain ⟨rfl, rfl⟩ := h
  rfl

/-- Where steps back, and steps on after them, lead from behind the newest of so many entries. -/
def placeAfter (entries back on : Nat) : Nat := entries - min back entries + on

/-! ## One step -/

theorem at_select {s : Session} {index : Nat} (h : index < s.history.length) : At index (s.select index) where
  entry := fun _ => ⟨rfl, by simp [select, h]⟩
  behind := fun hle => absurd h (Nat.not_lt.2 hle)

theorem At.selected_eq {s : Session} {place : Nat} (h : At place s) (hlt : place < s.history.length) :
    s.selected = some place :=
  (h.entry hlt).1

/-- The first step back goes to the newest entry, whatever the input is. -/
theorem at_previous_of_none {s : Session} (hselected : s.selected = none) (hne : s.history ≠ []) :
    At (s.history.length - 1) s.previous := by
  have hpos := List.length_pos_iff.2 hne
  rw [previous, if_neg (by simpa using hne), hselected]
  exact at_select (by omega)

/-- Every further one goes to the entry before, if there is one. -/
theorem At.previous {s : Session} {place : Nat} (h : At place s) (hlt : place < s.history.length) :
    At (place - 1) s.previous := by
  have hne : ¬s.history.isEmpty = true := by
    rw [List.isEmpty_iff_length_eq_zero]
    omega
  rw [Session.previous, if_neg hne, h.selected_eq hlt]
  exact at_select (by omega)

/-- A step on goes to the place after. Behind the newest entry all places are one. -/
theorem At.next {s : Session} {place : Nat} (h : At place s) : At (place + 1) s.next := by
  by_cases hlt : place < s.history.length
  · rw [Session.next, h.selected_eq hlt]
    dsimp only
    split
    · rename_i hnext
      exact at_select hnext
    · rename_i hlast
      exact {
        entry := fun h => absurd h hlast
        behind := fun _ => ⟨rfl, rfl⟩ }
  · have hbehind := h.behind (Nat.not_lt.1 hlt)
    rw [Session.next, hbehind.1]
    exact {
      entry := fun h => absurd (Nat.lt_of_succ_lt h) hlt
      behind := fun _ => hbehind }

/-! ## A run of steps -/

theorem run_append (s : Session) (events events' : List KeyEvent) :
    s.run (events ++ events') = (s.run events).run events' := List.foldl_append

/-- Events that ask for no commit leave the history as it is. -/
theorem history_run {events : List KeyEvent} (h : ∀ event ∈ events, asksToCommit event = false)
    (s : Session) : (s.run events).history = s.history := by
  induction events generalizing s with
  | nil => rfl
  | cons event events ih =>
    obtain ⟨hevent, hevents⟩ := List.forall_mem_cons.1 h
    have hkept := (answers_handle s event).history
    rw [committed?_of_not_asks hevent, Option.toList_none, List.append_nil] at hkept
    exact (ih hevents (s.handle event)).trans hkept

theorem At.run_ups {s : Session} {place : Nat} (h : At place s) (hlt : place < s.history.length)
    {ups : List KeyEvent} (hups : ∀ event ∈ ups, event.Presses .up) :
    At (place - ups.length) (s.run ups) := by
  induction ups generalizing s place with
  | nil => exact h
  | cons up ups ih =>
    obtain ⟨hup, hups⟩ := List.forall_mem_cons.1 hups
    have hstep := h.previous hlt
    rw [← handle_up hup] at hstep
    have hlt' : place - 1 < (s.handle up).history.length := by
      rw [handle_up hup, previous_history]
      omega
    have hrun := ih hstep hlt' hups
    rwa [Nat.sub_sub, Nat.add_comm] at hrun

theorem At.run_downs {s : Session} {place : Nat} (h : At place s) {downs : List KeyEvent}
    (hdowns : ∀ event ∈ downs, event.Presses .down) : At (place + downs.length) (s.run downs) := by
  induction downs generalizing s place with
  | nil => exact h
  | cons down downs ih =>
    obtain ⟨hdown, hdowns⟩ := List.forall_mem_cons.1 hdowns
    have hstep := h.next
    rw [← handle_down hdown] at hstep
    have hrun := ih hstep hdowns
    rwa [Nat.add_assoc, Nat.add_comm 1] at hrun

/-- Steps back and steps on after them, from nothing selected. -/
theorem at_run_steps {s : Session} (hselected : s.selected = none) (hne : s.history ≠ [])
    {ups downs : List KeyEvent} (hups : ∀ event ∈ ups, event.Presses .up)
    (hdowns : ∀ event ∈ downs, event.Presses .down) (hback : ups ≠ []) :
    At (placeAfter s.history.length ups.length downs.length) (s.run (ups ++ downs)) := by
  obtain ⟨up, more, rfl⟩ := List.exists_cons_of_ne_nil hback
  obtain ⟨hup, hmore⟩ := List.forall_mem_cons.1 hups
  have hpos := List.length_pos_iff.2 hne
  -- the first step is the one that does not begin at a place of the history
  have hfirst := at_previous_of_none hselected hne
  rw [← handle_up hup] at hfirst
  have hlt : s.history.length - 1 < (s.handle up).history.length := by
    rw [handle_up hup, previous_history]
    omega
  have hrun := (hfirst.run_ups hlt hmore).run_downs hdowns
  have hstart : s.history.length - 1 - more.length + downs.length =
      placeAfter s.history.length (up :: more).length downs.length := by
    rw [placeAfter, List.length_cons]
    omega
  rw [run_append, ← hstart]
  exact hrun

/-- **Steps back and steps on lead where they should.** From nothing selected, whatever the input is, as many
steps back as there are entries lead from the newest to the oldest, and more stay there; each step on leads to
the next entry, and behind the newest there is an empty input to step to, where more stay. The history is the
same all the way. -/
theorem run_steps {s : Session} (hselected : s.selected = none) (hne : s.history ≠ [])
    {ups downs : List KeyEvent} (hups : ∀ event ∈ ups, event.Presses .up)
    (hdowns : ∀ event ∈ downs, event.Presses .down) (hback : ups ≠ []) :
    (∀ events, events <+: ups ++ downs → (s.run events).history = s.history) ∧
    (∀ h : placeAfter s.history.length ups.length downs.length < s.history.length,
      (s.run (ups ++ downs)).selected = some (placeAfter s.history.length ups.length downs.length) ∧
      (s.run (ups ++ downs)).input =
        s.history[placeAfter s.history.length ups.length downs.length].abbreviation) ∧
    (s.history.length ≤ placeAfter s.history.length ups.length downs.length →
      (s.run (ups ++ downs)).selected = none ∧ (s.run (ups ++ downs)).input = []) := by
  have hasks : ∀ event ∈ ups ++ downs, asksToCommit event = false := by
    intro event hevent
    rcases List.mem_append.1 hevent with hevent | hevent
    · exact (hups event hevent).not_asks (.inl rfl)
    · exact (hdowns event hevent).not_asks (.inr rfl)
  have hkept : ∀ events, events <+: ups ++ downs → (s.run events).history = s.history :=
    fun events hfront => history_run (fun event hevent => hasks event (hfront.subset hevent)) s
  have hplace := at_run_steps hselected hne hups hdowns hback
  have hhistory := hkept _ (List.prefix_refl _)
  refine ⟨hkept, fun h => ?_, fun h => hplace.behind (hhistory ▸ h)⟩
  have hentry := hplace.entry (hhistory ▸ h)
  simpa only [hhistory] using hentry

/-- Two expansions that were committed, and input that was typed after them. -/
def twoCommitted : Session :=
  run { expander := { aliases := .empty } }
    ("tb".toList.map ({ code := .char · }) ++ [{ code := .enter }] ++
      "btn".toList.map ({ code := .char · }) ++ [{ code := .tab }, { code := .char 'x' }])

/-- One step back more than there are entries, one of them with the control key. -/
def stepsBack : List KeyEvent := [{ code := .up }, { code := .up, control := true }, { code := .up }]

theorem run_steps_twoCommitted : twoCommitted.selected = none ∧ twoCommitted.history ≠ [] ∧
    twoCommitted.input = ['x'] ∧
    (∀ event ∈ stepsBack, event.Presses .up) ∧ stepsBack ≠ [] ∧
    (∀ event ∈ List.replicate 3 ({ code := .down } : KeyEvent), event.Presses .down) ∧
    (twoCommitted.run (stepsBack ++ [{ code := .down }])).selected = some 1 ∧
    (twoCommitted.run (stepsBack ++ [{ code := .down }])).input = "btn".toList ∧
    (twoCommitted.run (stepsBack ++ List.replicate 3 { code := .down })).selected = none ∧
    (twoCommitted.run (stepsBack ++ List.replicate 3 { code := .down })).input = [] ∧
    (twoCommitted.run stepsBack).history = twoCommitted.history := by
  have hselected : twoCommitted.selected = none := by decide +kernel
  have hhistory : twoCommitted.history =
      [⟨"tb".toList, "<tb />".toList⟩, ⟨"btn".toList, "<btn />".toList⟩] := by decide +kernel
  have hne : twoCommitted.history ≠ [] := by rw [hhistory]; exact List.cons_ne_nil _ _
  have hback : ∀ event ∈ stepsBack, event.Presses .up :=
    List.forall_mem_cons.2 ⟨⟨rfl, rfl⟩, List.forall_mem_cons.2 ⟨⟨rfl, rfl⟩,
      List.forall_mem_singleton.2 ⟨rfl, rfl⟩⟩⟩
  have hon : ∀ n, ∀ event ∈ List.replicate n ({ code := .down } : KeyEvent), event.Presses .down :=
    fun n event hevent => List.eq_of_mem_replicate hevent ▸ ⟨rfl, rfl⟩
  obtain ⟨hkept, hentry, -⟩ := run_steps hselected hne hback (hon 1) (List.cons_ne_nil _ _)
  obtain ⟨-, -, hbehind⟩ := run_steps hselected hne hback (hon 3) (List.cons_ne_nil _ _)
  simp only [hhistory] at hentry hbehind
  obtain ⟨hplace, hinput⟩ := hentry (by decide)
  obtain ⟨hnone, hempty⟩ := hbehind (by decide)
  exact ⟨hselected, hne, by decide +kernel, hback, List.cons_ne_nil _ _, hon 3, hplace, hinput, hnone, hempty,
    hkept _ (List.prefix_append _ _)⟩

end Session
end Shorthand
