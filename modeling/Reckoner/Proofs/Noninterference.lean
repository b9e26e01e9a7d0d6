import Mathlib.Data.List.Forall2
import Reckoner.Session

/-!
# Values decide nothing

What becomes of a line depends on its words and on which names are declared, and on no value.  If
two trees differ in their numbers only, and the same names are declared in two environments, then
both trees have a value or both fail with the same error; they log the same events but for the
values in them, and leave environments in which the same names are declared.  So no operation is
left out because of a value, no division fails, and no name is looked up or not for the value of
another.

The two runs are compared step by step.  A step may hand different values on, as long as whoever
goes on with them cannot tell them apart; which values it may take for the same is a parameter of
the comparison, so that steps that are alike are so one after the other.

## Main definitions

* `Node.valueless`, `Event.valueless` — trees and events without their values.
* `Evaluation.OutcomesAlike`, `Evaluation.Result.Alike` — ends of two runs that only values tell
  apart.
* `Evaluation.Alike` — evaluations that end alike wherever the same names are declared.
* `Outcome.Alike`, `Session.Report.Alike` — the same for what lines do.

## Main results

* `Evaluation.Alike.bind` — steps that are alike are so one after the other.
* `evaluate_alike` — trees that only numbers tell apart are evaluated alike.
* `Session.noninterference` — **no value decides what happens.**
-/

namespace Reckoner

/-! ### Trees and events without values -/

/-- A tree with a zero in the place of each of its numbers. -/
def Node.valueless : Node → Node
  | .number _ l => .number 0 l
  | .reference name l => .reference name l
  | .declaration name initial l => .declaration name initial.valueless l
  | .assignment name value l => .assignment name value.valueless l
  | .binary op left right l => .binary op left.valueless right.valueless l
  | .call callee args l => .call callee (args.map Node.valueless) l
  | .prototype signature => .prototype signature
  | .function signature body l => .function signature body.valueless l

theorem Node.shape_valueless (node : Node) : node.valueless.shape = node.shape := by
  cases node <;> rw [valueless] <;> rfl

/-- Trees that only their numbers tell apart have the same shape. -/
theorem Node.shape_eq_of_valueless {a b : Node} (h : a.valueless = b.valueless) :
    a.shape = b.shape := by
  rw [← a.shape_valueless, h, b.shape_valueless]

/-- An event with a zero in the place of the value that it logs. -/
def Event.valueless : Event → Event
  | declare name _ => declare name 0
  | assign name _ => assign name 0
  | evaluate shape => evaluate shape
  | unreadable e => unreadable e

/-! ### Two runs -/

namespace Evaluation

variable {α β γ δ : Type} {R : α → β → Prop} {S : γ → δ → Prop}

/-- Two outcomes are alike if they are values that may be taken for the same, or the same error. -/
inductive OutcomesAlike (R : α → β → Prop) : Except EvalError α → Except EvalError β → Prop
  | ok {a : α} {b : β} : R a b → OutcomesAlike R (.ok a) (.ok b)
  | error (e : EvalError) : OutcomesAlike R (.error e) (.error e)

/-- Two evaluations end alike: with outcomes that are alike, with the same names declared, and with
the same events up to the values in them. -/
structure Result.Alike (R : α → β → Prop) (r : Result α) (r' : Result β) : Prop where
  outcome : OutcomesAlike R r.outcome r'.outcome
  environment : r.environment.SameNames r'.environment
  events : r.events.map Event.valueless = r'.events.map Event.valueless

/-- Two evaluations end alike wherever the same names are declared. -/
def Alike (R : α → β → Prop) (x : Evaluation α) (y : Evaluation β) : Prop :=
  ∀ ⦃env env' : Environment⦄, env.SameNames env' → (x env).Alike R (y env')

theorem Alike.pure {a : α} {b : β} (h : R a b) :
    Alike R (pure a : Evaluation α) (pure b : Evaluation β) :=
  fun _ _ hnames => ⟨.ok h, hnames, rfl⟩

/-- Evaluations that are alike are so one after the other. -/
theorem Alike.bind {x : Evaluation α} {y : Evaluation β} {f : α → Evaluation γ}
    {g : β → Evaluation δ} (h : Alike R x y) (hnext : ∀ a b, R a b → Alike S (f a) (g b)) :
    Alike S (x >>= f) (y >>= g) := by
  intro env env' hnames
  obtain ⟨houtcome, hbetween, hevents⟩ := h hnames
  rcases hx : x env with ⟨outcome, between, events⟩
  rcases hy : y env' with ⟨outcome', between', events'⟩
  rw [hx, hy] at houtcome hbetween hevents
  cases houtcome with
  | error e =>
    rw [bind_apply_of_error hx, bind_apply_of_error hy]
    exact ⟨.error e, hbetween, hevents⟩
  | ok hvalues =>
    obtain ⟨houtcome, hafter, hmore⟩ := hnext _ _ hvalues hbetween
    rw [bind_apply_of_ok hx, bind_apply_of_ok hy]
    refine ⟨houtcome, hafter, ?_⟩
    rw [List.map_append, List.map_append, hevents, hmore]

theorem alike_log {event event' : Event} (h : event.valueless = event'.valueless) :
    Alike (fun _ _ => True) (log event) (log event') := by
  intro env env' hnames
  refine ⟨.ok trivial, hnames, ?_⟩
  rw [log, log, List.map_singleton, List.map_singleton, h]

theorem alike_fail (R : α → β → Prop) (e : EvalError) :
    Alike R (fail e : Evaluation α) (fail e : Evaluation β) :=
  fun _ _ hnames => ⟨.error e, hnames, rfl⟩

/-- Whether a name is declared is the same where the same names are. -/
theorem alike_isDeclared (name : String) : Alike Eq (isDeclared name) (isDeclared name) :=
  fun _ _ hnames => ⟨.ok (hnames name), hnames, rfl⟩

/-- A name has a value in both environments, or in none. -/
theorem alike_lookup? (name : String) :
    Alike (fun a b => a.isSome = b.isSome) (lookup? name) (lookup? name) :=
  fun _ _ hnames => ⟨.ok (hnames name), hnames, rfl⟩

theorem alike_set (name : String) (value value' : Float) :
    Alike (fun _ _ => True) (set name value) (set name value') :=
  fun _ _ hnames => ⟨.ok trivial, hnames.set name value value', rfl⟩

/-- Binding a name and logging it is alike, whatever the values. -/
theorem alike_bindAndLog {event event' : Event} (name : String) (value value' : Float)
    (h : event.valueless = event'.valueless) :
    Alike (fun _ _ => True) (do log event; set name value; return value)
      (do log event'; set name value'; return value') :=
  (alike_log h).bind fun _ _ _ => (alike_set name value value').bind fun _ _ _ => .pure trivial

end Evaluation

open Evaluation

/-! ### Trees -/

/-- Trees that only their numbers tell apart are evaluated alike. -/
theorem evaluate_alike {a b : Node} (h : a.valueless = b.valueless) :
    Alike (fun _ _ => True) (evaluate a) (evaluate b) := by
  induction a using Node.evaluation_induction generalizing b with
  | number value l =>
    cases b with
    | number value' l' =>
      rw [evaluate, evaluate]
      exact (alike_log rfl).bind fun _ _ _ => .pure trivial
    | _ => cases Node.shape_eq_of_valueless h
  | reference name l =>
    cases b with
    | reference name' l' =>
      simp only [Node.valueless, Node.reference.injEq] at h
      obtain ⟨rfl, rfl⟩ := h
      rw [evaluate]
      refine (alike_log rfl).bind fun _ _ _ => ?_
      refine (alike_lookup? name).bind fun found found' hfound => ?_
      cases found with
      | none =>
        cases found' with
        | none => exact alike_fail _ _
        | some value' => cases hfound
      | some value =>
        cases found' with
        | none => cases hfound
        | some value' => exact .pure trivial
    | _ => cases Node.shape_eq_of_valueless h
  | declaration name initial l ih =>
    cases b with
    | declaration name' initial' l' =>
      simp only [Node.valueless, Node.declaration.injEq] at h
      obtain ⟨rfl, hinitial, rfl⟩ := h
      rw [evaluate, evaluate]
      refine (alike_log rfl).bind fun _ _ _ => (ih hinitial).bind fun value value' _ => ?_
      -- the question whether the name is free has the same answer in both runs
      refine (alike_isDeclared name).bind fun bound bound' hbound => ?_
      subst hbound
      cases bound with
      | true => exact alike_fail _ _
      | false => exact alike_bindAndLog name value value' rfl
    | _ => cases Node.shape_eq_of_valueless h
  | assignment name target l ih =>
    cases b with
    | assignment name' target' l' =>
      simp only [Node.valueless, Node.assignment.injEq] at h
      obtain ⟨rfl, htarget, rfl⟩ := h
      rw [evaluate, evaluate]
      refine (alike_log rfl).bind fun _ _ _ => ?_
      refine (alike_isDeclared name).bind fun bound bound' hbound => ?_
      subst hbound
      cases bound with
      | false => exact alike_fail _ _
      | true =>
        exact (ih htarget).bind fun value value' _ => alike_bindAndLog name value value' rfl
    | _ => cases Node.shape_eq_of_valueless h
  | binary op left right l ihleft ihright =>
    cases b with
    | binary op' left' right' l' =>
      simp only [Node.valueless, Node.binary.injEq] at h
      obtain ⟨rfl, hleft, hright, rfl⟩ := h
      rw [evaluate, evaluate]
      exact (alike_log rfl).bind fun _ _ _ => (ihleft hleft).bind fun _ _ _ =>
        (ihright hright).bind fun _ _ _ => .pure trivial
    | _ => cases Node.shape_eq_of_valueless h
  | call callee args l =>
    cases b with
    | call callee' args' l' =>
      simp only [Node.valueless, Node.call.injEq] at h
      obtain ⟨rfl, -, rfl⟩ := h
      rw [evaluate, evaluate]
      exact (alike_log rfl).bind fun _ _ _ => alike_fail _ _
    | _ => cases Node.shape_eq_of_valueless h
  | prototype signature =>
    cases b with
    | prototype signature' =>
      simp only [Node.valueless, Node.prototype.injEq] at h
      subst h
      rw [evaluate]
      exact (alike_log rfl).bind fun _ _ _ => alike_fail _ _
    | _ => cases Node.shape_eq_of_valueless h
  | function signature body l =>
    cases b with
    | function signature' body' l' =>
      simp only [Node.valueless, Node.function.injEq] at h
      obtain ⟨rfl, -, rfl⟩ := h
      rw [evaluate, evaluate]
      exact (alike_log rfl).bind fun _ _ _ => alike_fail _ _
    | _ => cases Node.shape_eq_of_valueless h

/-! ### Lines -/

/-- What became of a statement is alike: the same statement has a value or the same error, or the
same failure kept it from being read. -/
inductive Outcome.Alike : Outcome → Outcome → Prop
  | evaluated (node : Node) {result result' : Except EvalError Float} :
      OutcomesAlike (fun _ _ => True) result result' →
      Alike (.evaluated node result) (.evaluated node result')
  | syntaxError (e : ParseError) : Alike (.syntaxError e) (.syntaxError e)

namespace Session

/-- Two lines did alike: the same became of each statement up to values, the same was logged up to
values, and the same names are declared. -/
structure Report.Alike (report report' : Report) : Prop where
  outcomes : List.Forall₂ Outcome.Alike report.outcomes report'.outcomes
  events : report.events.map Event.valueless = report'.events.map Event.valueless
  session : report.session.environment.SameNames report'.session.environment

variable {session session' : Session}

theorem runStatements_alike (hnames : session.environment.SameNames session'.environment)
    (nodes : List Node) :
    (runStatements nodes session).Alike (runStatements nodes session') := by
  induction nodes generalizing session session' with
  | nil => exact ⟨.nil, rfl, hnames⟩
  | cons node nodes ih =>
    obtain ⟨houtcome, hafter, hevents⟩ := evaluate_alike (a := node) rfl hnames
    obtain ⟨houtcomes, hmore, hlast⟩ := @ih ⟨_⟩ ⟨_⟩ hafter
    refine ⟨.cons (.evaluated node houtcome) houtcomes, ?_, hlast⟩
    rw [runStatements, runStatements, List.map_append, List.map_append, hevents, hmore]

theorem enter_alike (hnames : session.environment.SameNames session'.environment) (line : String) :
    (session.enter line).Alike (session'.enter line) := by
  obtain ⟨houtcomes, hevents, hlast⟩ := runStatements_alike hnames (Script.ofString line).statements
  unfold enter runScript
  cases (Script.ofString line).failure with
  | none => exact ⟨houtcomes, hevents, hlast⟩
  | some e =>
    refine ⟨List.rel_append houtcomes (.cons (.syntaxError e) .nil), ?_, hlast⟩
    rw [List.map_append, List.map_append, hevents]

/-- **No value decides what happens.**  Let the same names be declared in two sessions, whatever
their values.  Trees that only their numbers tell apart both have a value or fail with the same
error there, log the same events up to the values in them, and leave the same names declared.  And
if the same lines are entered into both sessions, then line by line the same becomes of each
statement up to values, the same is logged up to values, and the same names are declared. -/
theorem noninterference (hnames : session.environment.SameNames session'.environment) :
    (∀ a b : Node, a.valueless = b.valueless →
      (evaluate a session.environment).Alike (fun _ _ => True) (evaluate b session'.environment)) ∧
    ∀ lines : List String,
      List.Forall₂ Report.Alike (enterAll lines session) (enterAll lines session') := by
  refine ⟨fun a b h => evaluate_alike h hnames, fun lines => ?_⟩
  induction lines generalizing session session' with
  | nil => exact .nil
  | cons line lines ih =>
    have hreport := enter_alike hnames line
    exact .cons hreport (ih hreport.session)

/-- A name that is one in one session and no number in another is divided by zero, and by one; and a
line assigns to it before a name that is not declared. -/
theorem noninterference_division :
    let session : Session := ⟨Environment.empty.set "x" 1⟩
    let session' : Session := ⟨Environment.empty.set "x" (0 / 0)⟩
    (evaluate (.binary .divide (.reference "x" ⟨1, 1⟩) (.number 0 ⟨1, 5⟩) ⟨1, 3⟩)
        session.environment).Alike (fun _ _ => True)
      (evaluate (.binary .divide (.reference "x" ⟨1, 1⟩) (.number 1 ⟨1, 5⟩) ⟨1, 3⟩)
        session'.environment) ∧
      List.Forall₂ Report.Alike (enterAll ["x = x / 0; y; x"] session)
        (enterAll ["x = x / 0; y; x"] session') := by
  have hnames := (Environment.SameNames.refl .empty).set "x" 1 (0 / 0)
  obtain ⟨htrees, hlines⟩ :=
    @noninterference ⟨Environment.empty.set "x" 1⟩ ⟨Environment.empty.set "x" (0 / 0)⟩ hnames
  refine ⟨htrees _ _ ?_, hlines _⟩
  simp only [Node.valueless]

end Session

end Reckoner
