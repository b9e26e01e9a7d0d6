import Reckoner.Proofs.Blame
import Reckoner.Proofs.Reading

/-!
# How far a parser looks

A parser that stops in front of an entry, with success or without, has looked at the entries that it
has read and at the one in front of which it stops, and at nothing behind it.  On any other stream
that begins with these entries it does the same and stops at the same place, however much or little
is behind them.

The loops of the grammar count what is ahead, and so they do see how much there is; but for what
they do, any bound that is large enough is as good as any other.

## Main definitions

* `TokenStream.Shares` — that two streams have the same entries up to a place, and at that place.
* `Parser.LooksNoFurther` — that a parser looks no further than where it stops.

## Main results

* `Parser.LooksNoFurther.loop` — a loop may be bounded by what is ahead.
* `Parser.LooksNoFurther.compositional` — the whole grammar looks no further than where it stops.
* `TokenStream.exists_shares` — streams share what they have at the same places.
-/

namespace Reckoner

/-! ### What streams share -/

namespace TokenStream

/-- `Shares s t s' t'`: up to its rest `t` the stream `s` has the tokens that `s'` has up to its
rest `t'`, and the same entry comes next in both rests. -/
structure Shares (s t s' t' : TokenStream) : Prop where
  stop_eq : s.stop = t.stop
  stop_eq' : s'.stop = t'.stop
  head_eq : t'.head = t.head
  tokens_eq : ∃ ts, s.tokens = ts ++ t.tokens ∧ s'.tokens = ts ++ t'.tokens

variable {s t u s' t' : TokenStream}

/-- Where nothing is shared but the next entry, the rests are all there is. -/
theorem Shares.eq (h : Shares s s s' t') : t' = s' ∧ s'.head = s.head := by
  obtain ⟨-, hstop, hhead, ts, hs, hs'⟩ := h
  obtain rfl : ts = [] := List.append_left_eq_self.1 hs.symm
  obtain rfl : t' = s' := ext hs'.symm hstop.symm
  exact ⟨rfl, hhead⟩

/-- What is shared up to the tail is the next entry, and the tails are what is left. -/
theorem Shares.eq_tail (h : Shares s s.tail s' t') : t' = s'.tail := by
  cases s using cons_induction with
  | nil stop =>
    obtain ⟨rfl, hhead⟩ := h.eq
    obtain ⟨_ | ⟨a, tokens⟩, stop'⟩ := t'
    · rfl
    · cases hhead
  | cons a s =>
    obtain ⟨-, hstop, -, ts, hs, hs'⟩ := h
    have htokens : [a] ++ s.tokens = ts ++ s.tokens := hs
    obtain rfl := List.append_cancel_right htokens
    obtain ⟨tokens, stop⟩ := s'
    obtain rfl : tokens = a :: t'.tokens := hs'
    exact ext rfl hstop.symm

/-- What is shared up to a rest is shared up to every place in front of it, and from there. -/
theorem Shares.split (h : Shares s t s' t') (hu : u.IsRestOf s) (ht : t.IsRestOf u) :
    ∃ u', Shares s u s' u' ∧ Shares u t u' t' := by
  obtain ⟨hstop, hstop', hhead, ts, hs, hs'⟩ := h
  obtain ⟨hstopu, front, hfront⟩ := hu
  obtain ⟨hstopt, behind, hbehind⟩ := ht
  have htokens : ts ++ t.tokens = front ++ behind ++ t.tokens := by
    rw [List.append_assoc, hbehind, hfront, hs]
  obtain rfl := List.append_cancel_right htokens
  rw [List.append_assoc] at hs'
  refine ⟨⟨behind ++ t'.tokens, s'.stop⟩, ⟨hstopu.symm, rfl, ?_, front, hfront.symm, hs'⟩,
    ⟨hstopt.symm, hstop', hhead, behind, hbehind.symm, rfl⟩⟩
  obtain ⟨tokens, stop⟩ := u
  obtain rfl : behind ++ t.tokens = tokens := hbehind
  cases behind with
  | cons a behind => rfl
  | nil =>
    -- nothing lies between, so the entry is the one behind what is shared
    obtain rfl : t.stop = stop := hstopt
    rw [hstop']
    exact hhead

/-- Streams that have the same entries up to a place and at that place share them. -/
theorem exists_shares {ts : List Token} (hs : s.tokens = ts ++ t.tokens) (hstop : s.stop = t.stop)
    (h : ∀ k ≤ ts.length, s'.entries[k]? = s.entries[k]?) : ∃ t', Shares s t s' t' := by
  induction ts generalizing s s' with
  | nil =>
    have hhead := h 0 (Nat.zero_le _)
    rw [getElem?_entries_zero, getElem?_entries_zero, Option.some.injEq] at hhead
    obtain rfl : s = t := ext hs hstop
    exact ⟨s', rfl, rfl, hhead, [], rfl, rfl⟩
  | cons a ts ih =>
    obtain ⟨tokens, stop⟩ := s
    obtain rfl : tokens = a :: (ts ++ t.tokens) := hs
    have hhead := h 0 (Nat.zero_le _)
    rw [getElem?_entries_zero, getElem?_entries_zero, Option.some.injEq] at hhead
    rw [eq_cons_of_head hhead] at h ⊢
    have hrest : ∃ t', Shares ⟨ts ++ t.tokens, stop⟩ t s'.tail t' :=
      ih rfl hstop fun k hk => h (k + 1) (Nat.succ_le_succ hk)
    obtain ⟨t', hstop, hstop', hhead', ts', hts, hts'⟩ := hrest
    exact ⟨t', hstop, hstop', hhead', a :: ts', congrArg (a :: ·) hts, congrArg (a :: ·) hts'⟩

end TokenStream

/-! ### Parsers that look no further than where they stop -/

namespace Parser

variable {α β : Type}

/-- The end of a run, with something else left. -/
def leaving (result : EStateM.Result ParseError TokenStream α) (t : TokenStream) :
    EStateM.Result ParseError TokenStream α :=
  match result with
  | .ok a _ => .ok a t
  | .error e _ => .error e t

/-- A parser looks no further than where it stops: on every stream that shares what it has read and
the entry in front of which it stops, it comes to the same end. -/
structure LooksNoFurther (p : Parser α) : Prop where
  forward : p.Forward
  same : ∀ {s s' t' : TokenStream}, s.Shares (p.rest s) s' t' → p s' = leaving (p s) t'

namespace LooksNoFurther

theorem of_ok {p : Parser α} (h : p.LooksNoFurther) {s t s' t' : TokenStream} {a : α}
    (hrun : p s = .ok a t) (hshares : s.Shares t s' t') : p s' = .ok a t' := by
  have hsame : s.Shares (p.rest s) s' t' → p s' = leaving (p s) t' := h.same
  simp only [rest, hrun, leaving] at hsame
  exact hsame hshares

theorem of_error {p : Parser α} (h : p.LooksNoFurther) {s t s' t' : TokenStream} {e : ParseError}
    (hrun : p s = .error e t) (hshares : s.Shares t s' t') : p s' = .error e t' := by
  have hsame : s.Shares (p.rest s) s' t' → p s' = leaving (p s) t' := h.same
  simp only [rest, hrun, leaving] at hsame
  exact hsame hshares

/-- A parser that moves nothing and looks at the next entry only. -/
theorem of_head {p : Parser α} {q : Entry → Except ParseError α}
    (h : ∀ s, p s = match q s.head with
      | .ok a => .ok a s
      | .error e => .error e s) : p.LooksNoFurther := by
  have hrest : ∀ s, p.rest s = s := by
    intro s
    rw [rest, h]
    cases q s.head <;> rfl
  refine ⟨fun s => ?_, fun {s s' t'} hshares => ?_⟩
  · rw [hrest]
    exact .refl s
  · rw [hrest] at hshares
    obtain ⟨rfl, hhead⟩ := hshares.eq
    rw [h, h, hhead]
    cases q s.head <;> rfl

theorem advance : LooksNoFurther advance where
  forward := .advance
  same hshares := by
    obtain rfl := hshares.eq_tail
    rfl

/-- What is shared by a run of two parsers is shared by each of their runs. -/
theorem bind {p : Parser α} {f : α → Parser β} (hp : p.LooksNoFurther)
    (hf : ∀ a, (f a).LooksNoFurther) : (p >>= f).LooksNoFurther where
  forward := .bind hp.forward fun a => (hf a).forward
  same {s s' t'} hshares := by
    cases hfirst : p s with
    | error e u =>
      have hrest : (p >>= f).rest s = u := by rw [rest, bind_run_error hfirst]
      rw [hrest] at hshares
      rw [bind_run_error hfirst, bind_run_error (hp.of_error hfirst hshares)]
      rfl
    | ok a u =>
      have hrest : (p >>= f).rest s = (f a).rest u := by rw [rest, bind_run_ok hfirst, rest]
      rw [hrest] at hshares
      obtain ⟨u', hfront, hbehind⟩ :=
        hshares.split (hp.forward.of_ok hfirst) ((hf a).forward u)
      rw [bind_run_ok hfirst, bind_run_ok (hp.of_ok hfirst hfront)]
      exact (hf a).same hbehind

theorem steps : Steps fun _ => LooksNoFurther where
  pure a := of_head (q := fun _ => .ok a) fun _ => rfl
  bind := bind
  current := of_head (q := .ok) fun _ => rfl
  advance := advance
  reject expected := of_head (q := fun entry => .error (.unexpected entry expected)) fun _ => rfl
  tooDeep := of_head (q := fun entry => .error (.nestedTooDeeply entry.location)) fun _ => rfl

/-- A loop that may be bounded by any number large enough may be bounded by what is ahead, although
that differs from stream to stream. -/
theorem loop {f : Nat → Parser α} (h : ∀ bound, (f bound).LooksNoFurther)
    (hbound : ∀ {bound : Nat} {s : TokenStream}, s.length ≤ bound →
      f bound s = (remaining >>= f) s) : (remaining >>= f).LooksNoFurther where
  forward := .bind .remaining fun bound => (h bound).forward
  same {s s' t'} hshares := by
    -- one bound is large enough for both streams
    have hs : f (max s.length s'.length) s = (remaining >>= f) s := hbound (Nat.le_max_left _ _)
    have hs' : f (max s.length s'.length) s' = (remaining >>= f) s' := hbound (Nat.le_max_right _ _)
    have hrest : (remaining >>= f).rest s = (f (max s.length s'.length)).rest s := by
      rw [rest, rest, hs]
    rw [hrest] at hshares
    rw [← hs', ← hs]
    exact (h _).same hshares

/-- All parsers of the grammar look no further than where they stop. -/
theorem compositional : Compositional fun _ => LooksNoFurther where
  toSteps := steps
  separated hitem expected := loop (fun bound => steps.separatedUpTo hitem expected bound)
    (separatedUpTo_eq_separated hitem.forward expected)
  climb hoperand least left := loop (fun bound => steps.climbUpTo hoperand bound least left)
    (Grammar.climbUpTo_eq_climb hoperand.forward least left)

end LooksNoFurther

end Parser

end Reckoner
