import Mathlib.Data.List.Basic
import Mathlib.Data.List.Induction
import ReversePolish.Session

set_option autoImplicit false

/-! # Runs of a session

An expression in a slot never changes: it is replaced by another one that is read into the slot, or
it goes when the slot is dropped, and nothing else that is done in a session touches it. So the
history of a run tells what is in a slot without the states in between: it is what the last text
that could be read into the slot reads as, unless the slot has been dropped since. The main
statement says that every reply of a run is the one that such freshly read expressions give,
whatever was asked, refused or failed before. -/

namespace ReversePolish

namespace Session

/-! ## What a history tells of a slot -/

/-- The slot that an action is done to. -/
def Action.slot : Action → String
  | .new slot _ _ | .ask slot _ | .equal slot _ | .equalRoot slot _ | .setSource slot _
  | .drop slot => slot

/-- The slots that must hold something for an action. -/
def Action.needs : Action → List String
  | .new _ _ _ => []
  | .equal slot other | .equalRoot slot other => [slot, other]
  | .ask slot _ | .setSource slot _ | .drop slot => [slot]

/-- The action puts an expression into the slot, or empties it. -/
inductive Action.Replaces (slot : String) : Action → Prop where
  | new {d : Domain} {text : Option String} {e : Expression}
      (read_eq : Expression.read? d text = .ok e) : Replaces slot (.new slot d text)
  | drop : Replaces slot (.drop slot)

/-- The expression is read afresh from the last text that was read into the slot, and the slot has
    not been dropped since. -/
def Fresh (history : List Action) (slot : String) (e : Expression) : Prop :=
  ∃ before d text after, history = before ++ .new slot d text :: after ∧
    Expression.read? d text = .ok e ∧ ∀ a ∈ after, ¬ a.Replaces slot

/-- The reply to an action after a history, told from the texts in the history alone. -/
inductive Answers (history : List Action) : Action → Reply → Prop where
  | created {slot : String} {d : Domain} {text : Option String} {e : Expression}
      (read_eq : Expression.read? d text = .ok e) :
      Answers history (.new slot d text) (.created e.describe)
  | failed {slot : String} {d : Domain} {text : Option String} {f : ReadingFailure}
      (read_eq : Expression.read? d text = .error f) :
      Answers history (.new slot d text) (.failed f)
  | answered {slot : String} {query : Query} {e : Expression} (fresh : Fresh history slot e) :
      Answers history (.ask slot query) (.answered (e.answer query))
  | compared {slot other : String} {e f : Expression} (fresh : Fresh history slot e)
      (fresh_other : Fresh history other f) :
      Answers history (.equal slot other) (.compared (e.sameAs f))
  | comparedRoots {slot other : String} {e f : Expression} (fresh : Fresh history slot e)
      (fresh_other : Fresh history other f) :
      Answers history (.equalRoot slot other) (.compared (Expr.sameValue e.root f.root))
  | refused {slot text : String} {e : Expression} (fresh : Fresh history slot e) :
      Answers history (.setSource slot text) (.refused [.ofField "source_text" .frozen])
  | dropped {slot : String} {e : Expression} (fresh : Fresh history slot e) :
      Answers history (.drop slot) .dropped
  | noSlot {a : Action} {slot : String} (needed : slot ∈ a.needs)
      (unread : ∀ e, ¬ Fresh history slot e) : Answers history a .noSlot

/-! ## One action -/

variable {s : Session} {a : Action} {slot : String} {e : Expression}

theorem Action.Replaces.slot_eq (h : a.Replaces slot) : a.slot = slot := by
  cases h with
  | new h => rfl
  | drop => rfl

/-- An action that neither reads an expression nor drops a slot leaves the session as it is. -/
theorem act_eq_self (h : ∀ slot, ¬ a.Replaces slot) : (s.act a).1 = s := by
  cases a with
  | new slot d text =>
    rw [act]
    split
    · next e he => exact absurd (.new he) (h slot)
    · rfl
  | drop slot => exact absurd .drop (h slot)
  | ask slot query | setSource slot text =>
    rw [act]
    split
    · rfl
    · rfl
  | equal slot other | equalRoot slot other =>
    rw [act]
    split
    · rfl
    · rfl

theorem get?_act_of_not_replaces (h : ¬ a.Replaces slot) :
    (s.act a).1.get? slot = s.get? slot := by
  cases a with
  | new slot' d text =>
    rw [act]
    split
    · next e he =>
      refine get?_put_of_ne s e ?_
      rintro rfl
      exact h (.new he)
    · rfl
  | drop slot' =>
    rw [act]
    split
    · refine get?_erase_of_ne s ?_
      rintro rfl
      exact h .drop
    · rfl
  | ask | equal | equalRoot | setSource => rw [act_eq_self (by rintro u ⟨⟩)]

theorem get?_act_new {d : Domain} {text : Option String}
    (h : Expression.read? d text = .ok e) :
    (s.act (.new slot d text)).1.get? slot = some e := by
  rw [act, h]
  exact get?_put_self s slot e

theorem get?_act_drop : (s.act (.drop slot)).1.get? slot = none := by
  rw [act]
  split
  · exact get?_erase_self s slot
  · next hget => exact hget

/-- The step lemma: after an action a slot holds what the action has read into it, or what it held
    before if the action does not replace it. -/
theorem get?_act_eq_some_iff :
    (s.act a).1.get? slot = some e ↔
      (∃ d text, a = .new slot d text ∧ Expression.read? d text = .ok e) ∨
        (s.get? slot = some e ∧ ¬ a.Replaces slot) := by
  constructor
  · intro h
    by_cases hreplaces : a.Replaces slot
    · cases hreplaces with
      | @new d text e' he =>
        rw [get?_act_new he] at h
        cases h
        exact .inl ⟨d, text, rfl, he⟩
      | drop =>
        rw [get?_act_drop] at h
        cases h
    · rw [get?_act_of_not_replaces hreplaces] at h
      exact .inr ⟨h, hreplaces⟩
  · rintro (⟨d, text, rfl, he⟩ | ⟨h, hreplaces⟩)
    · exact get?_act_new he
    · rw [get?_act_of_not_replaces hreplaces, h]

/-! ## Runs -/

theorem run_append (s : Session) (as bs : List Action) :
    s.run (as ++ bs) =
      (((s.run as).1.run bs).1, (s.run as).2 ++ ((s.run as).1.run bs).2) := by
  induction as generalizing s with
  | nil => rfl
  | cons a as ih =>
    rw [List.cons_append, run, run]
    simp only [ih]
    rfl

@[simp] theorem length_run (s : Session) (as : List Action) :
    (s.run as).2.length = as.length := by
  induction as generalizing s with
  | nil => rfl
  | cons a as ih =>
    rw [run]
    simp [ih]

/-- The reply at a place of a run is that of the session which the actions before it leave. -/
theorem getElem?_run (s : Session) (as bs : List Action) (a : Action) :
    (s.run (as ++ a :: bs)).2[as.length]? = some ((s.run as).1.act a).2 := by
  have hlen : (s.run as).2.length ≤ as.length := by simp
  rw [run_append, List.getElem?_append_right hlen, length_run, Nat.sub_self]
  rfl

/-! ## Histories -/

theorem not_fresh_nil : ¬ Fresh [] slot e := by
  rintro ⟨before, d, text, after, h, -⟩
  simp at h

theorem fresh_concat_iff {history : List Action} :
    Fresh (history ++ [a]) slot e ↔
      (∃ d text, a = .new slot d text ∧ Expression.read? d text = .ok e) ∨
        (Fresh history slot e ∧ ¬ a.Replaces slot) := by
  constructor
  · rintro ⟨before, d, text, after, heq, hread, hafter⟩
    rcases List.eq_nil_or_concat after with rfl | ⟨after', b, rfl⟩
    · obtain ⟨-, hlast⟩ := List.append_inj' heq rfl
      cases hlast
      exact .inl ⟨d, text, rfl, hread⟩
    · have hsplit : history ++ [a] = (before ++ .new slot d text :: after') ++ [b] := by
        rw [heq]
        simp
      obtain ⟨hinit, hlast⟩ := List.append_inj' hsplit rfl
      cases hlast
      right
      refine ⟨⟨before, d, text, after', hinit, hread, ?_⟩, ?_⟩
      · intro c hc
        exact hafter c (by simp [hc])
      · exact hafter a (by simp)
  · rintro (⟨d, text, rfl, hread⟩ | ⟨⟨before, d, text, after, rfl, hread, hafter⟩, hnot⟩)
    · exact ⟨history, d, text, [], rfl, hread, by simp⟩
    · refine ⟨before, d, text, after ++ [a], by simp, hread, ?_⟩
      intro c hc
      rcases List.mem_append.1 hc with hc | hc
      · exact hafter c hc
      · rw [List.mem_singleton.1 hc]
        exact hnot

/-- The run lemma: a slot holds an expression exactly if the history of the run has it fresh. -/
theorem get?_run_eq_some_iff {history : List Action} :
    (empty.run history).1.get? slot = some e ↔ Fresh history slot e := by
  induction history using List.reverseRecOn generalizing slot e with
  | nil =>
    refine iff_of_false ?_ not_fresh_nil
    intro h
    cases h
  | append_singleton history a ih =>
    rw [run_append, fresh_concat_iff, ← ih]
    exact get?_act_eq_some_iff

/-! ## Replies -/

section Replies

variable {history : List Action} {reply : Reply}

/-- If two slots do not both hold something, one of them holds nothing. -/
theorem exists_get?_eq_none {other : String}
    (h : ∀ e f, s.get? slot = some e → s.get? other = some f → False) :
    ∃ u ∈ [slot, other], s.get? u = none := by
  cases he : s.get? slot with
  | none => exact ⟨slot, by simp, he⟩
  | some e =>
    cases hf : s.get? other with
    | none => exact ⟨other, by simp, hf⟩
    | some f => exact (h e f he hf).elim

theorem answers_act (h : ∀ slot e, s.get? slot = some e ↔ Fresh history slot e) (a : Action) :
    Answers history a (s.act a).2 := by
  have hnone : ∀ {slot}, s.get? slot = none → ∀ e, ¬ Fresh history slot e := by
    intro slot hget e he
    rw [(h slot e).2 he] at hget
    cases hget
  cases a with
  | new slot d text =>
    rw [act]
    split
    · next e he => exact .created he
    · next f hf => exact .failed hf
  | ask slot query =>
    rw [act]
    split
    · next e he => exact .answered ((h slot e).1 he)
    · next hget => exact .noSlot List.mem_cons_self (hnone hget)
  | setSource slot text =>
    rw [act]
    split
    · next e he => exact .refused ((h slot e).1 he)
    · next hget => exact .noSlot List.mem_cons_self (hnone hget)
  | drop slot =>
    rw [act]
    split
    · next e he => exact .dropped ((h slot e).1 he)
    · next hget => exact .noSlot List.mem_cons_self (hnone hget)
  | equal slot other =>
    rw [act]
    split
    · next e f he hf => exact .compared ((h slot e).1 he) ((h other f).1 hf)
    · next hnot =>
      obtain ⟨u, hu, hget⟩ := exists_get?_eq_none hnot
      exact .noSlot hu (hnone hget)
  | equalRoot slot other =>
    rw [act]
    split
    · next e f he hf => exact .comparedRoots ((h slot e).1 he) ((h other f).1 hf)
    · next hnot =>
      obtain ⟨u, hu, hget⟩ := exists_get?_eq_none hnot
      exact .noSlot hu (hnone hget)

/-- A history has one reply to an action. -/
theorem act_eq_of_answers (h : ∀ slot e, s.get? slot = some e ↔ Fresh history slot e)
    (hreply : Answers history a reply) : (s.act a).2 = reply := by
  cases hreply with
  | created he | failed he => rw [act, he]
  | answered he | refused he | dropped he => rw [act, (h _ _).2 he]
  | compared he hf | comparedRoots he hf => rw [act, (h _ _).2 he, (h _ _).2 hf]
  | @noSlot _ slot hneeded hunread =>
    have hnone : s.get? slot = none := by
      cases hget : s.get? slot with
      | none => rfl
      | some e => exact absurd ((h slot e).1 hget) (hunread e)
    cases a with
    | new => cases hneeded
    | ask | setSource | drop =>
      rw [List.mem_singleton.1 hneeded] at hnone
      rw [act, hnone]
    | equal slot' other | equalRoot slot' other =>
      rcases List.mem_pair.1 hneeded with rfl | rfl
      · rw [act, hnone]
      · rw [act, hnone]
        cases s.get? slot' <;> rfl

end Replies

/-- In every run of a session each action has one reply, and it is the one that the expressions give
    which are read afresh from the last texts of the slots. A text that cannot be read and an attempt
    at changing an expression leave the session as it is, and an action on one slot leaves all the
    others. -/
theorem replies_of_fresh_expressions :
    (∀ history a rest reply,
      (empty.run (history ++ a :: rest)).2[history.length]? = some reply ↔
        Answers history a reply) ∧
      (∀ history, (empty.run history).2.length = history.length) ∧
      (∀ (s : Session) slot d text f,
        Expression.read? d text = .error f → (s.act (.new slot d text)).1 = s) ∧
      (∀ (s : Session) slot text, (s.act (.setSource slot text)).1 = s) ∧
      ∀ (s : Session) a slot, slot ≠ a.slot → (s.act a).1.get? slot = s.get? slot := by
  refine ⟨?_, length_run empty, ?_, ?_, ?_⟩
  · intro history a rest reply
    have hheld : ∀ slot e, (empty.run history).1.get? slot = some e ↔ Fresh history slot e :=
      fun slot e => get?_run_eq_some_iff
    rw [getElem?_run, Option.some.injEq]
    constructor
    · rintro rfl
      exact answers_act hheld a
    · exact act_eq_of_answers hheld
  · intro s slot d text f hf
    refine act_eq_self ?_
    rintro u ⟨he⟩
    rw [hf] at he
    cases he
  · intro s slot text
    exact act_eq_self (by rintro u ⟨⟩)
  · intro s a slot hne
    exact get?_act_of_not_replaces fun h => hne h.slot_eq.symm

/-- The quotient in slot `a` outlives a text that cannot be read, an attempt at changing it, and
    another slot that comes and goes. -/
theorem replies_of_fresh_expressions_quotient :
    let text := some "1 0 /"
    let later : List Action :=
      [.new "b" .interval (some "1,2"), .ask "a" .evaluate, .new "a" .arithmetic (some "1 +"),
        .setSource "a" "2", .drop "b"]
    (∃ e, Expression.read? .arithmetic text = .ok e ∧
      (empty.run (.new "a" .arithmetic text :: later ++ [.ask "a" .infixForm])).2[6]? =
        some (.answered (e.answer .infixForm))) ∧
      (∃ f, Expression.read? .arithmetic (some "1 +") = .error f ∧
        ∀ s : Session, (s.act (.new "a" .arithmetic (some "1 +"))).1 = s) ∧
      "a" ≠ (Action.drop "b").slot ∧
      ∀ s : Session, (s.act (.drop "b")).1.get? "a" = s.get? "a" := by
  intro text later
  have hread : Expression.read? .arithmetic text =
      .ok ⟨.arithmetic,
        .node .div
          (.leaf (.number ⟨false, 2 ^ 52, 1022, by decide, by decide, .inr (Nat.le_refl _)⟩))
          (.leaf (.number (.zero false))),
        "1 0 /"⟩ := by decide +kernel
  have hfail : Expression.read? .arithmetic (some "1 +") =
      .error (.syntaxError (.insufficientOperands "+" 1 1)) := by decide +kernel
  have hlater : ∀ a ∈ later, ¬ a.Replaces "a" := by
    intro a ha hreplaces
    cases hreplaces with
    | new he =>
      simp only [later, List.mem_cons, Action.new.injEq, reduceCtorEq, String.reduceEq, false_and,
        true_and, false_or, or_false, List.not_mem_nil] at ha
      rw [ha.1, ha.2, hfail] at he
      cases he
    | drop => simp [later] at ha
  obtain ⟨hreply, -, hfailed, -, hother⟩ := replies_of_fresh_expressions
  refine ⟨⟨_, hread, ?_⟩, ⟨_, hfail, fun s => hfailed s _ _ _ _ hfail⟩, by decide, ?_⟩
  · exact (hreply _ _ _ _).2 (.answered ⟨[], _, _, _, rfl, hread, hlater⟩)
  · exact fun s => hother s _ _ (by decide)

end Session

end ReversePolish
