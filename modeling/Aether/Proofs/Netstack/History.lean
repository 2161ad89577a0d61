/-
How the readings of a history grow with it.
-/
import Aether.Netstack.Flow
import Aether.Netstack.History

namespace Aether

open List

variable {id : Nat}

/-- An element of two lists in a row is in the first or in the second. -/
theorem append_split {α : Type} {t es before after : List α} {e : α}
    (h : t ++ es = before ++ e :: after) :
    (∃ c, t = before ++ e :: c) ∨ ∃ c, before = t ++ c ∧ es = c ++ e :: after := by
  rcases append_eq_append_iff.mp h with ⟨c, hc, hc'⟩ | ⟨c, hc, hc'⟩
  · exact Or.inr ⟨c, hc, hc'⟩
  · cases c with
    | nil => exact Or.inr ⟨[], by simpa using hc.symm, by simpa using hc'.symm⟩
    | cons e' c =>
      injection hc' with he _
      exact Or.inl ⟨c, by rw [he]; exact hc⟩

/-! ### What was done for a flow -/

variable {t es : List Event}

@[simp] theorem flowLog_append (t t' : List Event) :
    flowLog id (t ++ t') = flowLog id t ++ flowLog id t' := by
  simp [flowLog]

@[simp] theorem flowLog_map (es : List FlowEvent) : flowLog id (es.map (.flow id)) = es := by
  induction es with
  | nil => rfl
  | cons e rest ih =>
    rw [map_cons, flowLog, filterMap_cons_some (b := e) (by simp)]
    exact congrArg (e :: ·) ih

theorem flowLog_other (h : ∀ e ∈ es, e.about id = false) : flowLog id es = [] := by
  rw [flowLog, filterMap_eq_nil_iff]
  intro e he
  have habout := h e he
  cases e with
  | flow i e => simpa [Event.about] using habout
  | _ => rfl

@[simp] theorem flowLog_ingested (d : DataIn) : flowLog id [.ingested d] = [] := rfl

@[simp] theorem flowLog_polled (arrived : Nat → Bytes) (state : Nat → Option Tcp.State) :
    flowLog id [.polled arrived state] = [] := rfl

@[simp] theorem flowLog_abort : flowLog id [.flow id .abort] = [.abort] := by
  simp [flowLog]

theorem mem_flowLog {e : FlowEvent} : e ∈ flowLog id t ↔ Event.flow id e ∈ t := by
  simp only [flowLog, mem_filterMap]
  constructor
  · rintro ⟨a, ha, hsome⟩
    cases a with
    | flow i e' =>
      simp only [Option.ite_none_right_eq_some, Option.some.injEq] at hsome
      rw [← hsome.1, ← hsome.2]
      exact ha
    | _ => cases hsome
  · intro h
    exact ⟨_, h, by simp⟩

@[simp] theorem accepted_append (l l' : List FlowEvent) :
    accepted (l ++ l') = accepted l ++ accepted l' := by
  simp [accepted]

@[simp] theorem delivered_append (l l' : List FlowEvent) :
    delivered (l ++ l') = delivered l ++ delivered l' := by
  simp [delivered]

/-! ### What was ingested for it -/

/-- Once the flow is open, the history since then grows at its end. -/
theorem sinceOpened_append (h : Event.openedTcp id ∈ t) (es : List Event) :
    sinceOpened id (t ++ es) = sinceOpened id t ++ es := by
  induction t with
  | nil => simp at h
  | cons e rest ih =>
    cases e with
    | openedTcp i =>
      by_cases hi : i = id
      · simp [sinceOpened, hi]
      · have hrest : Event.openedTcp id ∈ rest := by
          rcases mem_cons.mp h with hc | hc
          · injection hc with hc
            exact absurd hc.symm hi
          · exact hc
        simp [sinceOpened, hi, ih hrest]
    | _ =>
      have hrest : Event.openedTcp id ∈ rest := by simpa using h
      simp [sinceOpened, ih hrest]

theorem sinceOpened_new (h : Event.openedTcp id ∉ t) (es : List Event) :
    sinceOpened id (t ++ es) = sinceOpened id es := by
  induction t with
  | nil => rfl
  | cons e rest ih =>
    have hrest : Event.openedTcp id ∉ rest := fun hc => h (by simp [hc])
    cases e with
    | openedTcp i =>
      have hi : i ≠ id := by
        rintro rfl
        exact h (by simp)
      simp [sinceOpened, hi, ih hrest]
    | _ => simp [sinceOpened, ih hrest]

theorem messages_open (h : Event.openedTcp id ∉ t) : messages id (t ++ [.openedTcp id]) = [] := by
  simp [messages, sinceOpened_new h, sinceOpened]

theorem messages_ingested (h : Event.openedTcp id ∈ t) {d : DataIn} (hd : d.id = id) :
    messages id (t ++ [.ingested d]) = messages id t ++ [d] := by
  simp [messages, sinceOpened_append h, hd]

/-- Nothing but a message for the flow adds to its messages. -/
theorem messages_other (h : Event.openedTcp id ∈ t) (hes : ∀ d, Event.ingested d ∈ es → d.id ≠ id) :
    messages id (t ++ es) = messages id t := by
  rw [messages, sinceOpened_append h, filterMap_append]
  refine (congrArg _ ?_).trans (append_nil _)
  rw [filterMap_eq_nil_iff]
  intro e he
  cases e with
  | ingested d => exact if_neg (hes d he)
  | _ => rfl

@[simp] theorem stream_nil : stream [] = [] := rfl

@[simp] theorem stream_cons (d : DataIn) (q : List DataIn) :
    stream (d :: q) = d.payload ++ stream q := rfl

@[simp] theorem stream_append (q q' : List DataIn) : stream (q ++ q') = stream q ++ stream q' := by
  simp [stream]

end Aether
