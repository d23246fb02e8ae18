import Drift.Client.SessionReplay

/-!
# Recovery of inference sessions

A session that returns from all its steps has returned what its blocks make of all the tokens that it was given, however
its servers failed: the caches that were lost are the ones that the history rebuilds, on any other split of the
blocks, and in any number of tries.

* `Proceeds`, `Retries` — the loop after an attempt: the servers that have answered hold all tokens, those to come the
  past, or nothing yet;
* `Head.serveNext`, `Head.update`, `LoopInv.attempt`, `LoopInv.go` — one attempt, and the loop;
* `session_recovery_transparent` — whole runs;
* `session_step_completes` — a step returns, as soon as enough attempts are not ones of a failure.
-/

namespace Drift.Client

open Drift.Lib

variable {α : Type} {setup : SessionSetup α}

/-! ### Routes -/

/-- The spans are one after the other, from `a` to `b`, and none is empty. -/
def Tiles : Nat → Nat → List BlockSpan → Prop
  | a, b, [] => a = b
  | a, b, span :: rest => span.start = a ∧ span.start < span.stop ∧ Tiles span.stop b rest

theorem Tiles.append {a b c : Nat} {spans spans' : List BlockSpan} (h : Tiles a b spans) (h' : Tiles b c spans') :
    Tiles a c (spans ++ spans') := by
  induction spans generalizing a with
  | nil =>
    obtain rfl : a = b := h
    exact h'
  | cons span spans ih => exact ⟨h.1, h.2.1, ih h.2.2⟩

theorem Tiles.le {a b : Nat} {spans : List BlockSpan} (h : Tiles a b spans) : a ≤ b := by
  induction spans generalizing a with
  | nil => exact Nat.le_of_eq h
  | cons span spans ih =>
    have := ih h.2.2
    have := h.1
    have := h.2.1
    omega

/-- Every span lies between the ends. -/
theorem Tiles.bounds {a b : Nat} {spans : List BlockSpan} (h : Tiles a b spans) {span : BlockSpan}
    (hspan : span ∈ spans) : a ≤ span.start ∧ span.start < span.stop ∧ span.stop ≤ b := by
  induction spans generalizing a with
  | nil => cases hspan
  | cons first spans ih =>
    obtain ⟨hstart, hlt, hrest⟩ := h
    cases hspan with
    | head => exact ⟨Nat.le_of_eq hstart.symm, hlt, hrest.le⟩
    | tail _ hspan =>
      have := ih hrest hspan
      omega

theorem Tiles.eq_nil {a : Nat} {spans : List BlockSpan} (h : Tiles a a spans) : spans = [] := by
  cases spans with
  | nil => rfl
  | cons span spans =>
    have := h.1
    have := h.2.1
    have := h.2.2.le
    omega

/-- What `make_sequence` promises of a route: its spans are one after the other from `a`, and the last one reaches
`b`. -/
def Covers : Nat → Nat → List BlockSpan → Prop
  | _, _, [] => False
  | a, b, [span] => span.start = a ∧ a < b ∧ b ≤ span.stop
  | a, b, span :: rest => span.start = a ∧ span.start < span.stop ∧ Covers span.stop b rest

/-- Clipped, a route is one from end to end. -/
theorem Covers.tiles_clipLast {a b : Nat} {spans : List BlockSpan} (h : Covers a b spans) :
    Tiles a b (clipLast b spans) ∧ clipLast b spans ≠ [] := by
  induction spans generalizing a with
  | nil => exact h.elim
  | cons span rest ih =>
    cases rest with
    | nil =>
      obtain ⟨hstart, hlt, hle⟩ := h
      refine ⟨⟨hstart, ?_, Nat.min_eq_right hle⟩, List.cons_ne_nil _ _⟩
      show span.start < min span.stop b
      omega
    | cons next rest =>
      obtain ⟨hstart, hlt, hrest⟩ := h
      exact ⟨⟨hstart, hlt, (ih hrest).1⟩, List.cons_ne_nil _ _⟩

/-- The routes of an answer are routes. -/
def Answer.Lawful (a : Answer) : Prop := ∀ x y spans, x < y → a.route x y = some spans → Covers x y spans

/-- The answer is one of a failure: no route is found, or a request fails. -/
def Answer.Fails (a : Answer) : Prop := a.served ≠ none ∨ ∃ x y, x < y ∧ a.route x y = none

/-! ### The loop -/

section Loop

variable (setup) (past new : List α)

/-- A session that has its history from the one before it. -/
def IsPending (s : ServerSession α) : Prop :=
  s = (ServerSession.create s.span).prepareForReplay none (past ++ new).length

/-- The sessions after the present one, from a block on: new ones up to the end of the recovery, if there is one, and
then sessions that hold the past. -/
def Rest (b : Nat) : Option Nat → List (ServerSession α) → Prop
  | none, rest => Tiles b setup.blocks.length (rest.map ServerSession.span) ∧ ∀ s ∈ rest, Synced setup past s
  | some r, rest => ∃ replays plain, rest = replays ++ plain ∧ Tiles b r (replays.map ServerSession.span) ∧
      (∀ s ∈ replays, IsPending past new s) ∧ Tiles r setup.blocks.length (plain.map ServerSession.span) ∧
      ∀ s ∈ plain, Synced setup past s

/-- The sessions before the present one have answered: they hold all tokens. -/
def Front (loop : StepLoop α) (todo : List (ServerSession α)) : Prop :=
  ∃ done, loop.sessions = done ++ todo ∧ done.length = loop.serverIdx ∧
    Tiles 0 loop.blockIdx (done.map ServerSession.span) ∧ ∀ s ∈ done, Synced setup (past ++ new) s

/-- The inputs are the last ones of what the blocks before have made of all tokens: at least of the new ones. -/
def Carries (loop : StepLoop α) : Prop :=
  ∃ k ≤ past.length, loop.inputs = (through setup loop.blockIdx (past ++ new)).drop k

/-- The present session, and those after it. -/
structure Head (loop : StepLoop α) (s : ServerSession α) (rest : List (ServerSession α)) : Prop where
  front : Front setup past new loop (s :: rest)
  start : s.span.start = loop.blockIdx
  within : Within setup s.span
  rest : Rest setup past new s.span.stop loop.recoveryUntil rest
  carries : Carries setup past new loop

/-- The present session can take its step: it holds the past, and is given the new tokens, or it is to be replayed. -/
def Ready (loop : StepLoop α) (s : ServerSession α) : Prop :=
  match loop.recoveryUntil with
  | none => Synced setup past s ∧ loop.inputs = increment (through setup loop.blockIdx) past new
  | some _ => Pending setup (past ++ new) loop.inputs s

/-- The present session has failed, with a history of the past at least. -/
def HasFailed (s : ServerSession α) : Prop :=
  ∃ m, past.length ≤ m ∧ m ≤ (past ++ new).length ∧
    s.history = some ((through setup s.span.start (past ++ new)).take m)

/-- All blocks have answered. -/
structure Finished (loop : StepLoop α) : Prop where
  front : Front setup past new loop []
  last : loop.blockIdx = setup.blocks.length
  inputs : loop.inputs = increment (through setup setup.blocks.length) past new

/-- There are no sessions yet. -/
structure Unopened (loop : StepLoop α) : Prop where
  sessions : loop.sessions = []
  serverIdx : loop.serverIdx = 0
  blockIdx : loop.blockIdx = 0
  recoveryUntil : loop.recoveryUntil = none
  past : past = []
  inputs : loop.inputs = new

/-- After an attempt that succeeds. -/
def Proceeds (loop : StepLoop α) : Prop :=
  Finished setup past new loop ∨ ∃ s rest, Head setup past new loop s rest ∧ Ready setup past new loop s

/-- After an attempt that fails. -/
def Retries (loop : StepLoop α) : Prop :=
  Unopened past new loop ∨ ∃ s rest, Head setup past new loop s rest ∧ HasFailed setup past new s

end Loop

variable {past new : List α} {loop : StepLoop α} {s : ServerSession α} {rest : List (ServerSession α)}

theorem Front.getElem? {todo : List (ServerSession α)} (h : Front setup past new loop todo) :
    loop.sessions[loop.serverIdx]? = todo.head? := by
  obtain ⟨done, hsessions, hlength, -, -⟩ := h
  rw [hsessions, ← hlength, List.getElem?_append_right (Nat.le_refl _), Nat.sub_self]
  cases todo <;> rfl

/-- The present session is another one. -/
theorem Front.set (h : Front setup past new loop (s :: rest)) (s' : ServerSession α) :
    Front setup past new { loop with sessions := loop.sessions.set loop.serverIdx s' } (s' :: rest) := by
  obtain ⟨done, hsessions, hlength, htiles, hsynced⟩ := h
  refine ⟨done, ?_, hlength, htiles, hsynced⟩
  show loop.sessions.set loop.serverIdx s' = _
  rw [hsessions, ← hlength, List.set_append_right _ _ (Nat.le_refl _), Nat.sub_self]
  rfl

/-- The present session has answered. -/
theorem Front.advance (h : Front setup past new loop (s :: rest)) (hstart : s.span.start = loop.blockIdx)
    (hlt : s.span.start < s.span.stop) (hsynced : Synced setup (past ++ new) s) (recoveryUntil : Option Nat)
    (inputs : List α) :
    Front setup past new { loop with
      serverIdx := loop.serverIdx + 1, blockIdx := s.span.stop, inputs := inputs, recoveryUntil := recoveryUntil }
      rest := by
  obtain ⟨done, hsessions, hlength, htiles, hall⟩ := h
  refine ⟨done ++ [s], ?_, ?_, ?_, ?_⟩
  · show loop.sessions = _
    rw [hsessions, List.append_assoc, List.singleton_append]
  · rw [List.length_append, hlength]
    rfl
  · rw [List.map_append]
    exact htiles.append ⟨hstart, hlt, rfl⟩
  · intro s' hs'
    rcases List.mem_append.mp hs' with hs' | hs'
    · exact hall s' hs'
    · obtain rfl := List.mem_singleton.mp hs'
      exact hsynced

theorem Rest.bounds {b r : Nat} (h : Rest setup past new b (some r) rest) : b ≤ r ∧ r ≤ setup.blocks.length := by
  obtain ⟨replays, plain, -, hreplays, -, hplain, -⟩ := h
  exact ⟨hreplays.le, hplain.le⟩

/-- Where the recovery ends, the sessions to come hold the past. -/
theorem Rest.recovered {r : Nat} (h : Rest setup past new r (some r) rest) : Rest setup past new r none rest := by
  obtain ⟨replays, plain, rfl, hreplays, -, hplain, hsynced⟩ := h
  obtain rfl : replays = [] := List.map_eq_nil_iff.mp hreplays.eq_nil
  exact ⟨hplain, hsynced⟩

/-- The loop goes on with the new tokens. -/
theorem proceeds_of_increment (hfront : Front setup past new loop rest)
    (hrest : Rest setup past new loop.blockIdx none rest) (hrecovery : loop.recoveryUntil = none)
    (hinputs : loop.inputs = increment (through setup loop.blockIdx) past new) : Proceeds setup past new loop := by
  obtain ⟨htiles, hsynced⟩ := hrest
  cases rest with
  | nil =>
    have hlast : loop.blockIdx = setup.blocks.length := htiles
    rw [hlast] at hinputs
    exact Or.inl ⟨hfront, hlast, hinputs⟩
  | cons s rest =>
    right
    refine ⟨s, rest, ⟨hfront, htiles.1, ⟨htiles.2.1, htiles.2.2.le⟩, ?_, past.length, Nat.le_refl _, hinputs⟩, ?_⟩
    · rw [hrecovery]
      exact ⟨htiles.2.2, fun s' hs' => hsynced s' (List.mem_cons_of_mem _ hs')⟩
    · unfold Ready
      rw [hrecovery]
      exact ⟨hsynced s List.mem_cons_self, hinputs⟩

/-- Within a recovery, the loop goes on with all tokens. -/
theorem proceeds_of_replay {r : Nat} (hfront : Front setup past new loop rest)
    (hrest : Rest setup past new loop.blockIdx (some r) rest) (hrecovery : loop.recoveryUntil = some r)
    (hlt : loop.blockIdx < r) (hinputs : loop.inputs = through setup loop.blockIdx (past ++ new)) :
    Proceeds setup past new loop := by
  obtain ⟨replays, plain, rfl, hreplays, hpending, hplain, hsynced⟩ := hrest
  cases replays with
  | nil =>
    have heq : loop.blockIdx = r := hreplays
    omega
  | cons s replays =>
    have hstart : s.span.start = loop.blockIdx := hreplays.1
    have hlast := hreplays.2.2.le
    have hwhole := hplain.le
    right
    refine ⟨s, replays ++ plain, ⟨hfront, hstart, ⟨hreplays.2.1, by omega⟩, ?_, 0, Nat.zero_le _, ?_⟩, ?_⟩
    · rw [hrecovery]
      exact ⟨replays, plain, rfl, hreplays.2.2, fun s' hs' => hpending s' (List.mem_cons_of_mem _ hs'), hplain, hsynced⟩
    · rw [hinputs, List.drop_zero]
    · unfold Ready
      rw [hrecovery, hinputs, ← hstart]
      have hs : IsPending past new s := hpending s List.mem_cons_self
      unfold IsPending at hs
      rw [hs]
      exact pending_of_inputs (past ++ new) s.span

theorem lastTokens_through (hnew : new ≠ []) (b : Nat) : lastTokens new.length (through setup b (past ++ new)) =
    increment (through setup b) past new := by
  have hlength : new.length ≠ 0 := fun hzero => hnew (List.eq_nil_of_length_eq_zero hzero)
  rw [length_lastTokens hlength, (causal_through setup b).length, List.length_append, Nat.add_sub_cancel]
  rfl

/-- A session that has failed, with its history. -/
theorem retries_of_broken (hhead : Head setup past new loop s rest) {s' : ServerSession α}
    (hbroken : Broken setup (past ++ new) s s') :
    Retries setup past new { loop with sessions := loop.sessions.set loop.serverIdx s' } := by
  right
  refine ⟨s', rest, ⟨hhead.front.set s', ?_, ?_, ?_, hhead.carries⟩, (past ++ new).length, ?_, Nat.le_refl _, ?_⟩
  · rw [hbroken.span]
    exact hhead.start
  · rw [hbroken.span]
    exact hhead.within
  · rw [hbroken.span]
    exact hhead.rest
  · rw [List.length_append]
    exact Nat.le_add_right _ _
  · have hlength := (causal_through setup s.span.start).length (past ++ new)
    rw [hbroken.history, hbroken.span, List.take_of_length_le (Nat.le_of_eq hlength)]

theorem sum_le_of_append (hmax : (past ++ new).length ≤ setup.maxLength) :
    past.length + new.length ≤ setup.maxLength := by
  rwa [List.length_append] at hmax

/-- **The present session takes its step**: the loop goes on, or the request fails. -/
theorem Head.serveNext (hhead : Head setup past new loop s rest) (hready : Ready setup past new loop s)
    (hnew : new ≠ []) (hmax : (past ++ new).length ≤ setup.maxLength) (served : Option Nat) :
    (∃ loop', loop.serveNext setup past.length new.length served = (.ok (), loop') ∧ Proceeds setup past new loop' ∧
        loop.blockIdx < loop'.blockIdx) ∨
      ∃ loop', loop.serveNext setup past.length new.length served = (.error .request, loop') ∧
        Retries setup past new loop' ∧ loop'.blockIdx = loop.blockIdx ∧ served ≠ none := by
  have hlt : loop.blockIdx < s.span.stop := hhead.start ▸ hhead.within.lt
  have hall : past ++ new ≠ [] := fun hnil => hnew (List.append_eq_nil_iff.mp hnil).2
  have hget : loop.sessions[loop.serverIdx]? = some s := hhead.front.getElem?
  unfold StepLoop.serveNext
  rw [hget]
  dsimp only
  unfold Ready at hready
  obtain hrecovery | ⟨r, hrecovery⟩ : loop.recoveryUntil = none ∨ ∃ r, loop.recoveryUntil = some r := by
    cases loop.recoveryUntil with
    | none => exact Or.inl rfl
    | some r => exact Or.inr ⟨r, rfl⟩
  · rw [hrecovery] at hready
    obtain ⟨hsynced, hinputs⟩ := hready
    rw [← hhead.start] at hinputs
    have hposition : ¬s.position ≠ (if s.replayTarget.isSome then 0 else past.length) := by
      rw [hsynced.replayTarget, hsynced.position]
      exact not_not.mpr rfl
    have hstep : s.step setup served loop.inputs = s.plainStep setup (decide (served = some 0))
        (increment (through setup s.span.start) past new) := by
      unfold ServerSession.step
      rw [hsynced.opened, hsynced.replayTarget, hinputs]
      rfl
    rw [if_neg hposition, hstep]
    by_cases hserved : served = some 0
    · obtain ⟨s', hfails, hbroken⟩ := hsynced.plainStep_fails new
      rw [decide_eq_true hserved, hfails]
      exact Or.inr ⟨_, rfl, retries_of_broken hhead hbroken, rfl,
        fun hnone => Option.some_ne_none 0 (hserved.symm.trans hnone)⟩
    · obtain ⟨s', hruns, hspan, hheld⟩ := hsynced.plainStep hhead.within hnew (sum_le_of_append hmax)
      rw [decide_eq_false hserved, hruns]
      dsimp only
      unfold StepLoop.advance
      dsimp only
      rw [hrecovery]
      have hfront := (hhead.front.set s').advance (hspan ▸ hhead.start) (hspan ▸ hhead.within.lt) hheld none
        (increment (through setup s.span.stop) past new)
      have hrest := hhead.rest
      rw [hrecovery] at hrest
      left
      refine ⟨_, rfl, proceeds_of_increment hfront (hspan ▸ hrest) rfl ?_, ?_⟩
      · dsimp only
        rw [hspan]
      · dsimp only
        rw [hspan]
        exact hlt
  · rw [hrecovery] at hready
    have hpending : Pending setup (past ++ new) loop.inputs s := hready
    obtain ⟨history, hcreated⟩ := hpending.created
    have hposition : ¬s.position ≠ (if s.replayTarget.isSome then 0 else past.length) := by
      rw [hcreated]
      exact not_not.mpr rfl
    rw [if_neg hposition]
    rcases hpending.step hhead.within hall hmax served with ⟨s', hruns, hspan, hheld⟩ | ⟨s', hfails, hbroken, hserved⟩
    · have hrest := hhead.rest
      rw [hrecovery] at hrest
      have hle := hrest.bounds.1
      rw [hruns]
      dsimp only
      unfold StepLoop.advance
      dsimp only
      rw [hrecovery]
      dsimp only
      rw [hspan]
      left
      by_cases hwithin : s.span.stop < r
      · rw [if_pos hwithin]
        have hfront := (hhead.front.set s').advance (hspan ▸ hhead.start) (hspan ▸ hhead.within.lt) hheld (some r)
          (through setup s.span.stop (past ++ new))
        rw [hspan] at hfront
        exact ⟨_, rfl, proceeds_of_replay hfront hrest rfl hwithin rfl, hlt⟩
      · obtain rfl : s.span.stop = r := Nat.le_antisymm hle (Nat.le_of_not_lt hwithin)
        rw [if_neg hwithin, if_neg (not_not.mpr rfl)]
        have hfront := (hhead.front.set s').advance (hspan ▸ hhead.start) (hspan ▸ hhead.within.lt) hheld none
          (lastTokens new.length (through setup s.span.stop (past ++ new)))
        rw [hspan] at hfront
        exact ⟨_, rfl, proceeds_of_increment hfront hrest.recovered rfl (lastTokens_through hnew _), hlt⟩
    · rw [hfails]
      exact Or.inr ⟨_, rfl, retries_of_broken hhead hbroken, rfl, hserved⟩

/-! ### New routes -/

/-- Closing the failed session changes nothing that counts. -/
theorem Retries.exitFailed (h : Retries setup past new loop) : Retries setup past new loop.exitFailed := by
  rcases h with h | ⟨s, rest, hhead, m, hle, hle', hhistory⟩
  · left
    refine ⟨?_, h.serverIdx, h.blockIdx, h.recoveryUntil, h.past, h.inputs⟩
    show loop.sessions.modify _ _ = []
    rw [h.sessions]
    cases loop.serverIdx <;> rfl
  · right
    refine ⟨{ s with closed := true }, rest, ⟨?_, hhead.start, hhead.within, hhead.rest, hhead.carries⟩, m, hle, hle',
      hhistory⟩
    obtain ⟨done, hsessions, hlength, htiles, hsynced⟩ := hhead.front
    refine ⟨done, ?_, hlength, htiles, hsynced⟩
    show loop.sessions.modify loop.serverIdx _ = _
    rw [hsessions, ← hlength, List.modify_eq_take_drop, List.take_left, List.drop_left]
    rfl

/-- The spans that a route gives for the present blocks. -/
theorem clipped_eq {a : Answer} (hlawful : a.Lawful) {x y : Nat} (hlt : x < y) :
    (a.route x y).map (clipLast y) = none ∧ a.Fails ∨
      ∃ span spans, (a.route x y).map (clipLast y) = some (span :: spans) ∧ Tiles x y (span :: spans) := by
  cases hroute : a.route x y with
  | none => exact Or.inl ⟨rfl, Or.inr ⟨x, y, hlt, hroute⟩⟩
  | some spans =>
    obtain ⟨htiles, hne⟩ := (hlawful x y spans hlt hroute).tiles_clipLast
    obtain ⟨span, rest, hspans⟩ := List.exists_cons_of_ne_nil hne
    rw [hspans] at htiles
    exact Or.inr ⟨span, rest, congrArg some hspans, htiles⟩

/-- **The first route** opens sessions that hold nothing, as nothing was given yet. -/
theorem Unopened.update (h : Unopened past new loop) {a : Answer} (hlawful : a.Lawful) :
    (∃ loop', loop.update setup past.length new.length a.route = (.ok none, loop') ∧ loop'.blockIdx = loop.blockIdx ∧
        ∃ s rest, Head setup past new loop' s rest ∧ Ready setup past new loop' s) ∨
      loop.update setup past.length new.length a.route = (.error .route, loop.exitFailed) ∧ a.Fails := by
  have hpositive : 0 < setup.blocks.length := List.length_pos_of_ne_nil setup.nonempty
  have hend : loop.updateEnd setup = setup.blocks.length := by
    unfold StepLoop.updateEnd
    rw [h.sessions]
    rfl
  unfold StepLoop.update
  dsimp only
  rw [hend, h.blockIdx]
  rcases clipped_eq hlawful hpositive with ⟨hnone, hfails⟩ | ⟨span, spans, hsome, htiles⟩
  · rw [hnone]
    exact Or.inr ⟨rfl, hfails⟩
  · have hget : loop.sessions[loop.serverIdx]? = none := by
      rw [h.sessions]
      rfl
    have hspans : ∀ spans : List BlockSpan,
        (spans.map (ServerSession.create (α := α))).map ServerSession.span = spans := by
      intro spans
      rw [List.map_map]
      exact List.map_id _
    have hfresh : ∀ s ∈ (span :: spans).map (ServerSession.create (α := α)), Synced setup past s := by
      intro s hs
      obtain ⟨span', hspan', rfl⟩ := List.mem_map.mp hs
      obtain ⟨-, hlt, hle⟩ := htiles.bounds hspan'
      rw [h.past]
      exact Synced.create ⟨hlt, hle⟩
    rw [hsome, hget]
    left
    refine ⟨_, rfl, h.blockIdx, ServerSession.create span, spans.map ServerSession.create, ⟨?_, ?_, ?_, ?_, ?_⟩, ?_⟩
    · refine ⟨[], ?_, h.serverIdx.symm, h.blockIdx.symm, fun s hs => absurd hs List.not_mem_nil⟩
      show loop.sessions.take loop.serverIdx ++ _ ++ loop.sessions.drop (loop.serverIdx + 1) = _
      rw [h.sessions, List.take_nil, List.drop_nil, List.append_nil]
      rfl
    · exact htiles.1.trans h.blockIdx.symm
    · exact ⟨htiles.2.1, htiles.2.2.le⟩
    · show Rest setup past new span.stop loop.recoveryUntil _
      rw [h.recoveryUntil]
      refine ⟨?_, fun s hs => hfresh s (List.mem_cons_of_mem _ hs)⟩
      rw [hspans]
      exact htiles.2.2
    · refine ⟨past.length, Nat.le_refl _, ?_⟩
      show loop.inputs = (through setup loop.blockIdx (past ++ new)).drop past.length
      rw [h.inputs, h.blockIdx, h.past]
      rfl
    · unfold Ready
      show (match loop.recoveryUntil with
        | none => Synced setup past (ServerSession.create span) ∧
            loop.inputs = increment (through setup loop.blockIdx) past new
        | some _ => Pending setup (past ++ new) loop.inputs (ServerSession.create span))
      rw [h.recoveryUntil, h.inputs, h.blockIdx, h.past]
      exact ⟨h.past ▸ hfresh _ List.mem_cons_self, rfl⟩

theorem map_span_pending (spans : List BlockSpan) (target : Nat) :
    (spans.map fun span => (ServerSession.create (α := α) span).prepareForReplay none target).map ServerSession.span =
      spans := by
  rw [List.map_map]
  exact List.map_id _

/-- Behind a replay that has begun, the sessions of the new route are still to be replayed. -/
theorem Rest.replayed {b e : Nat} {spans : List BlockSpan} (hspans : Tiles b e spans) {recoveryUntil : Option Nat}
    (h : Rest setup past new e recoveryUntil rest) :
    Rest setup past new b (some (StepLoop.recoveryEnd recoveryUntil e))
      ((spans.map fun span => (ServerSession.create span).prepareForReplay none (past ++ new).length) ++ rest) := by
  have hcreated : ∀ s ∈ spans.map fun span => (ServerSession.create (α := α) span).prepareForReplay none
      (past ++ new).length, IsPending past new s := by
    intro s hs
    obtain ⟨span, -, rfl⟩ := List.mem_map.mp hs
    rfl
  cases recoveryUntil with
  | none =>
    obtain ⟨htiles, hsynced⟩ := h
    exact ⟨_, rest, rfl, by rw [map_span_pending]; exact hspans, hcreated, htiles, hsynced⟩
  | some r =>
    have hle := h.bounds.1
    obtain ⟨replays, plain, rfl, hreplays, hpending, hplain, hsynced⟩ := h
    rw [StepLoop.recoveryEnd, Nat.max_eq_left hle]
    refine ⟨_ ++ replays, plain, (List.append_assoc _ _ _).symm, ?_, ?_, hplain, hsynced⟩
    · rw [List.map_append, map_span_pending]
      exact hspans.append hreplays
    · intro s hs
      rcases List.mem_append.mp hs with hs | hs
      · exact hcreated s hs
      · exact hpending s hs

/-- **A new route** for the blocks of a session that has failed: its history is there to be sent again. -/
theorem Head.update (hhead : Head setup past new loop s rest) (hfailed : HasFailed setup past new s) (hnew : new ≠ [])
    {a : Answer} (hlawful : a.Lawful) :
    (∃ replayUntil loop', loop.update setup past.length new.length a.route = (.ok replayUntil, loop') ∧
        (loop'.recovering replayUntil).blockIdx = loop.blockIdx ∧
        ∃ s' rest', Head setup past new (loop'.recovering replayUntil) s' rest' ∧
          Ready setup past new (loop'.recovering replayUntil) s') ∨
      loop.update setup past.length new.length a.route = (.error .route, loop.exitFailed) ∧ a.Fails := by
  obtain ⟨m, hle, hle', hhistory⟩ := hfailed
  have hget : loop.sessions[loop.serverIdx]? = some s := hhead.front.getElem?
  have hend : loop.updateEnd setup = s.span.stop := by
    unfold StepLoop.updateEnd
    rw [hget]
  have hlt : loop.blockIdx < s.span.stop := hhead.start ▸ hhead.within.lt
  unfold StepLoop.update
  dsimp only
  rw [hend]
  rcases clipped_eq hlawful hlt with ⟨hnone, hfails⟩ | ⟨span, spans, hsome, htiles⟩
  · rw [hnone]
    exact Or.inr ⟨rfl, hfails⟩
  · have hlength : ((through setup s.span.start (past ++ new)).take m).length = m := by
      rw [List.length_take, (causal_through setup s.span.start).length, Nat.min_eq_left hle']
    have htarget : past.length + new.length ≠ 0 := by
      have := List.length_pos_of_ne_nil hnew
      omega
    have hhistories : ¬(m < past.length ∨ past.length + new.length < m) := by
      rw [List.length_append] at hle'
      omega
    have hwithin : ((span :: spans).any fun span => decide (span.start < s.span.start ∨ span.stop ≤ span.start ∨
        s.span.stop < span.stop)) = false := by
      rw [List.any_eq_false]
      intro span' hspan'
      obtain ⟨hstart, hlt', hstop⟩ := htiles.bounds hspan'
      have := hhead.start
      rw [decide_eq_true_eq]
      omega
    rw [hsome, hget]
    dsimp only
    rw [hhistory]
    dsimp only
    rw [if_neg htarget, hlength, if_neg hhistories, hwithin, ← List.length_append]
    left
    refine ⟨some s.span.stop, _, rfl, rfl, ((ServerSession.create span).prepareForReplay
      (some ((through setup s.span.start (past ++ new)).take m)) (past ++ new).length),
      (spans.map fun span => (ServerSession.create span).prepareForReplay none (past ++ new).length) ++ rest,
      ⟨?_, ?_, ?_, ?_, ?_⟩, ?_⟩
    · obtain ⟨done, hsessions, hdone, htiles', hsynced⟩ := hhead.front
      refine ⟨done, ?_, hdone, htiles', hsynced⟩
      show loop.sessions.take loop.serverIdx ++ _ ++ loop.sessions.drop (loop.serverIdx + 1) = _
      have hdrop : (done ++ s :: rest).drop (done.length + 1) = rest := by
        simp
      rw [hsessions, ← hdone, List.take_left, hdrop, List.append_assoc]
      rfl
    · exact htiles.1
    · obtain ⟨-, hlt', hstop⟩ := htiles.bounds List.mem_cons_self
      exact ⟨hlt', Nat.le_trans hstop hhead.within.le⟩
    · exact hhead.rest.replayed htiles.2.2
    · exact hhead.carries
    · obtain ⟨k, hk, hinputs⟩ := hhead.carries
      have hstart : s.span.start = span.start := hhead.start.trans htiles.1.symm
      show Pending setup (past ++ new) loop.inputs _
      rw [hinputs, hstart, ← htiles.1]
      exact pending_of_history (Nat.le_trans hk hle) hle'

/-! ### Attempts -/

/-- The loop before an attempt. -/
def LoopInv (setup : SessionSetup α) (past new : List α) (loop : StepLoop α) : Prop :=
  (Proceeds setup past new loop ∧ loop.attemptNo = 0) ∨
    Retries setup past new loop ∧ (loop.sessions = [] ∨ 1 ≤ loop.attemptNo)

theorem Head.sessions_ne (h : Head setup past new loop s rest) : loop.sessions.isEmpty = false := by
  obtain ⟨done, hsessions, -, -, -⟩ := h.front
  rw [hsessions]
  cases done <;> rfl

/-- What an attempt leaves. An exception is one of a failure. -/
def Attempted (setup : SessionSetup α) (past new : List α) (loop : StepLoop α) (a : Answer) :
    Except StepFailure Unit × StepLoop α → Prop
  | (.ok (), loop') => Proceeds setup past new loop' ∧ loop.blockIdx < loop'.blockIdx
  | (.error e, loop') =>
    Retries setup past new loop' ∧ loop'.blockIdx = loop.blockIdx ∧ a.Fails ∧ (e = .route ∨ e = .request)

/-- A new route, and then the step of its first session. -/
theorem attempted_of_update {a : Answer} (hnew : new ≠ []) (hmax : (past ++ new).length ≤ setup.maxLength)
    (hretries : Retries setup past new loop)
    (hupdate : (∃ replayUntil loop', loop.update setup past.length new.length a.route = (.ok replayUntil, loop') ∧
        (loop'.recovering replayUntil).blockIdx = loop.blockIdx ∧
        ∃ s' rest', Head setup past new (loop'.recovering replayUntil) s' rest' ∧
          Ready setup past new (loop'.recovering replayUntil) s') ∨
      loop.update setup past.length new.length a.route = (.error .route, loop.exitFailed) ∧ a.Fails) :
    Attempted setup past new loop a (match loop.update setup past.length new.length a.route with
      | (.error e, loop') => (.error e, loop')
      | (.ok replayUntil, loop') =>
        (loop'.recovering replayUntil).serveNext setup past.length new.length a.served) := by
  rcases hupdate with ⟨replayUntil, loop', hupdate, hblock, s', rest', hhead, hready⟩ | ⟨hupdate, hfails⟩
  · rw [hupdate]
    dsimp only
    rcases hhead.serveNext hready hnew hmax a.served with
      ⟨loop'', hserve, hproceeds, hlt⟩ | ⟨loop'', hserve, hretry, hsame, hserved⟩
    · rw [hserve]
      exact ⟨hproceeds, hblock ▸ hlt⟩
    · rw [hserve]
      exact ⟨hretry, hsame.trans hblock, Or.inl hserved, Or.inr rfl⟩
  · rw [hupdate]
    exact ⟨hretries.exitFailed, rfl, hfails, Or.inl rfl⟩

/-- **An attempt** before the last block. -/
theorem LoopInv.attempt (h : LoopInv setup past new loop) (hnew : new ≠ [])
    (hmax : (past ++ new).length ≤ setup.maxLength) (hbefore : loop.blockIdx < setup.blocks.length) {a : Answer}
    (hlawful : a.Lawful) : Attempted setup past new loop a (loop.attempt setup past.length new.length a) := by
  unfold StepLoop.attempt
  rcases h with ⟨hfinished | ⟨s, rest, hhead, hready⟩, hattempt⟩ | ⟨hretries, hagain⟩
  · have := hfinished.last
    omega
  · -- the first attempt for a session
    have hfirst : ¬(loop.sessions.isEmpty = true ∨ 1 ≤ loop.attemptNo) := by
      rw [hhead.sessions_ne, hattempt]
      decide
    rw [if_neg hfirst]
    rcases hhead.serveNext hready hnew hmax a.served with
      ⟨loop', hserve, hproceeds⟩ | ⟨loop', hserve, hretry, hsame, hserved⟩
    · rw [hserve]
      exact hproceeds
    · rw [hserve]
      exact ⟨hretry, hsame, Or.inl hserved, Or.inr rfl⟩
  · -- a new route is needed
    have hupdate : loop.sessions.isEmpty = true ∨ 1 ≤ loop.attemptNo := by
      rcases hagain with hnil | hagain
      · exact Or.inl (by rw [hnil]; rfl)
      · exact Or.inr hagain
    rw [if_pos hupdate]
    refine attempted_of_update hnew hmax hretries ?_
    rcases hretries with hunopened | ⟨s, rest, hhead, hfailed⟩
    · rcases hunopened.update hlawful with ⟨loop', hupdate, hready⟩ | hfails
      · exact Or.inl ⟨none, loop', hupdate, hready⟩
      · exact Or.inr hfails
    · exact hhead.update hfailed hnew hlawful

theorem Proceeds.attemptNo (h : Proceeds setup past new loop) (k : Nat) :
    Proceeds setup past new { loop with attemptNo := k } := by
  rcases h with h | ⟨s, rest, h, hready⟩
  · exact Or.inl ⟨h.front, h.last, h.inputs⟩
  · exact Or.inr ⟨s, rest, ⟨h.front, h.start, h.within, h.rest, h.carries⟩, hready⟩

theorem Retries.attemptNo (h : Retries setup past new loop) (k : Nat) :
    Retries setup past new { loop with attemptNo := k } := by
  rcases h with h | ⟨s, rest, h, hfailed⟩
  · exact Or.inl ⟨h.sessions, h.serverIdx, h.blockIdx, h.recoveryUntil, h.past, h.inputs⟩
  · exact Or.inr ⟨s, rest, ⟨h.front, h.start, h.within, h.rest, h.carries⟩, hfailed⟩

/-- Past the last block, everything is done. -/
theorem LoopInv.finished (h : LoopInv setup past new loop) (hafter : setup.blocks.length ≤ loop.blockIdx) :
    Finished setup past new loop := by
  have hbefore : ∀ s rest, Head setup past new loop s rest → loop.blockIdx < setup.blocks.length := by
    intro s rest hhead
    have := hhead.start
    have := hhead.within.lt
    have := hhead.within.le
    omega
  have hpositive : 0 < setup.blocks.length := List.length_pos_of_ne_nil setup.nonempty
  rcases h with ⟨hfinished | ⟨s, rest, hhead, -⟩, -⟩ | ⟨hunopened | ⟨s, rest, hhead, -⟩, -⟩
  · exact hfinished
  · exact absurd (hbefore s rest hhead) (Nat.not_lt.mpr hafter)
  · have := hunopened.blockIdx
    omega
  · exact absurd (hbefore s rest hhead) (Nat.not_lt.mpr hafter)

/-- **The loop** ends with what all blocks make of the new tokens, and with sessions that hold all of them, or it gives
up with the exception of a failure. -/
theorem LoopInv.go {answers : List Answer} (h : LoopInv setup past new loop) (hnew : new ≠ [])
    (hmax : (past ++ new).length ≤ setup.maxLength) (hlawful : ∀ a ∈ answers, a.Lawful)
    {result : Except StepFailure (List α)} {loop' : StepLoop α}
    (hgo : StepLoop.go setup past.length new.length answers loop = some (result, loop')) :
    (result = .ok (increment (through setup setup.blocks.length) past new) ∧ Finished setup past new loop') ∨
      ∃ e, result = .error e ∧ (e = .route ∨ e = .request) ∧ ∃ a ∈ answers, a.Fails := by
  induction answers generalizing loop with
  | nil =>
    unfold StepLoop.go at hgo
    split at hgo
    · rename_i hafter
      have hfinished := h.finished hafter
      cases hgo
      exact Or.inl ⟨congrArg Except.ok hfinished.inputs, hfinished⟩
    · cases hgo
  | cons a answers ih =>
    have hrest : ∀ a' ∈ answers, a'.Lawful := fun a' ha' => hlawful a' (List.mem_cons_of_mem _ ha')
    unfold StepLoop.go at hgo
    split at hgo
    · cases hgo
    · rename_i hbefore
      have hattempted := h.attempt hnew hmax (Nat.lt_of_not_le hbefore) (hlawful a List.mem_cons_self)
      split at hgo
      · rename_i loop'' hattempt
        rw [hattempt] at hattempted
        have hnext : LoopInv setup past new { loop'' with attemptNo := 0 } := Or.inl ⟨hattempted.1.attemptNo 0, rfl⟩
        rcases ih hnext hrest hgo with hdone | ⟨e, hresult, hkind, a', ha', hfails⟩
        · exact Or.inl hdone
        · exact Or.inr ⟨e, hresult, hkind, a', List.mem_cons_of_mem _ ha', hfails⟩
      · rename_i e loop'' hattempt
        rw [hattempt] at hattempted
        obtain ⟨hretries, -, hfails, hkind⟩ := hattempted
        split at hgo
        · split at hgo
          · cases hgo
            exact Or.inr ⟨e, rfl, hkind, a, List.mem_cons_self, hfails⟩
          · cases hgo
        · have hnext : LoopInv setup past new { loop'' with attemptNo := loop.attemptNo + 1 } :=
            Or.inr ⟨hretries.attemptNo _, Or.inr (Nat.le_add_left 1 _)⟩
          rcases ih hnext hrest hgo with hdone | ⟨e', hresult, hkind', a', ha', hfails'⟩
          · exact Or.inl hdone
          · exact Or.inr ⟨e', hresult, hkind', a', List.mem_cons_of_mem _ ha', hfails'⟩

/-! ### Whole sessions -/

/-- A session between its operations: it has the tokens that it was given, and so have its servers. -/
structure Holds (setup : SessionSetup α) (past : List α) (s : InferenceSession α) : Prop where
  position : s.position = past.length
  servers : s.sessions = [] ∧ past = [] ∨ Tiles 0 setup.blocks.length (s.sessions.map ServerSession.span)
  synced : ∀ session ∈ s.sessions, Synced setup past session

theorem holds_start : Holds setup [] InferenceSession.start :=
  ⟨rfl, Or.inl ⟨rfl, rfl⟩, fun _ h => absurd h List.not_mem_nil⟩

/-- The loop of a step, as it begins. -/
theorem Holds.loopInv {s : InferenceSession α} (h : Holds setup past s) (new : List α) :
    LoopInv setup past new ⟨s.sessions, 0, 0, 0, none, new⟩ := by
  rcases h.servers with ⟨hnil, hpast⟩ | htiles
  · exact Or.inr ⟨Or.inl ⟨hnil, rfl, rfl, rfl, hpast, rfl⟩, Or.inl hnil⟩
  · have hnew : new = increment (through setup 0) past new := by
      show new = (past ++ new).drop past.length
      rw [List.drop_left]
    have hfront : Front setup past new ⟨s.sessions, 0, 0, 0, none, new⟩ s.sessions :=
      ⟨[], rfl, rfl, rfl, fun _ h => absurd h List.not_mem_nil⟩
    exact Or.inl ⟨proceeds_of_increment hfront ⟨htiles, h.synced⟩ rfl hnew, rfl⟩

theorem Finished.holds (h : Finished setup past new loop) :
    Holds setup (past ++ new) ⟨loop.sessions, past.length + new.length⟩ := by
  obtain ⟨done, hsessions, -, htiles, hsynced⟩ := h.front
  rw [List.append_nil] at hsessions
  refine ⟨List.length_append.symm, Or.inr ?_, ?_⟩
  · show Tiles 0 setup.blocks.length (loop.sessions.map ServerSession.span)
    rw [hsessions, ← h.last]
    exact htiles
  · show ∀ session ∈ loop.sessions, Synced setup (past ++ new) session
    rw [hsessions]
    exact hsynced

theorem lastTokens_increment (new : List α) (b : Nat) :
    lastTokens new.length (increment (through setup b) past new) = increment (through setup b) past new := by
  have hlength := (causal_through setup b).length_increment past new
  rw [← hlength]
  exact lastTokens_length _

/-- **A step** that the session has room for, and that returns, has returned what the blocks make of the new tokens,
after those that the session holds. An exception is one of a failure. -/
theorem Holds.step_within {s s' : InferenceSession α} (h : Holds setup past s) {inputs : List α} (hne : inputs ≠ [])
    (hmax : (past ++ inputs).length ≤ setup.maxLength) {answers : List Answer} (hlawful : ∀ a ∈ answers, a.Lawful)
    {result : Except StepFailure (List α)} (hstep : s.step setup inputs answers = some (result, s')) :
    (result = .ok (increment (through setup setup.blocks.length) past inputs) ∧ Holds setup (past ++ inputs) s') ∨
      ∃ e, result = .error e ∧ (e = .route ∨ e = .request) ∧ ∃ a ∈ answers, a.Fails := by
  have hroom : ¬setup.maxLength < past.length + inputs.length := by
    rw [← List.length_append]
    exact Nat.not_lt.mpr hmax
  unfold InferenceSession.step at hstep
  rw [h.position, if_neg hroom] at hstep
  cases hgo : StepLoop.go setup past.length inputs.length answers ⟨s.sessions, 0, 0, 0, none, inputs⟩ with
  | none =>
    rw [hgo] at hstep
    cases hstep
  | some ended =>
    obtain ⟨ended, loop⟩ := ended
    rw [hgo] at hstep
    rcases (h.loopInv inputs).go hne hmax hlawful hgo with ⟨rfl, hfinished⟩ | ⟨e, rfl, hkind, hfails⟩
    · cases hstep
      refine Or.inl ⟨?_, hfinished.holds⟩
      rw [lastTokens_increment]
    · cases hstep
      exact Or.inr ⟨e, rfl, hkind, hfails⟩

/-- A step that there may be no room for. -/
theorem Holds.step {s s' : InferenceSession α} (h : Holds setup past s) {inputs : List α} (hne : inputs ≠ [])
    {answers : List Answer} (hlawful : ∀ a ∈ answers, a.Lawful) {result : Except StepFailure (List α)}
    (hstep : s.step setup inputs answers = some (result, s')) :
    (result = .ok (increment (through setup setup.blocks.length) past inputs) ∧ Holds setup (past ++ inputs) s') ∨
      ∃ e, result = .error e ∧
        (e = .maximumLength ∧ s' = s ∨ (e = .route ∨ e = .request) ∧ ∃ a ∈ answers, a.Fails) := by
  by_cases hroom : setup.maxLength < s.position + inputs.length
  · unfold InferenceSession.step at hstep
    rw [if_pos hroom] at hstep
    split at hstep
    · cases hstep
      exact Or.inr ⟨_, rfl, Or.inl ⟨rfl, rfl⟩⟩
    · cases hstep
  · have hmax : (past ++ inputs).length ≤ setup.maxLength := by
      rw [List.length_append, ← h.position]
      exact Nat.le_of_not_lt hroom
    rcases h.step_within hne hmax hlawful hstep with hreturned | ⟨e, rfl, hfailed⟩
    · exact Or.inl hreturned
    · exact Or.inr ⟨e, rfl, Or.inr hfailed⟩

/-- The servers take a smaller position. -/
theorem setPositions_eq {p : Nat} (hp : p ≤ past.length) {sessions : List (ServerSession α)}
    (hsynced : ∀ session ∈ sessions, Synced setup past session) :
    InferenceSession.setPositions p sessions = (.ok (), sessions.map fun session => session.setPosition p) := by
  induction sessions with
  | nil => rfl
  | cons session sessions ih =>
    have hposition : p ≤ session.position := by
      rw [(hsynced session List.mem_cons_self).position]
      exact hp
    unfold InferenceSession.setPositions
    rw [if_pos hposition, ih fun s hs => hsynced s (List.mem_cons_of_mem _ hs)]
    rfl

theorem Holds.setPosition {s : InferenceSession α} (h : Holds setup past s) {p : Nat} (hp : p ≤ past.length) :
    ∃ s', s.setPosition p = (.ok (), s') ∧ Holds setup (past.take p) s' := by
  unfold InferenceSession.setPosition
  rw [setPositions_eq hp h.synced]
  refine ⟨_, rfl, ?_, ?_, ?_⟩
  · rw [List.length_take, Nat.min_eq_left hp]
  · rcases h.servers with ⟨hnil, hpast⟩ | htiles
    · left
      rw [hnil, hpast, List.take_nil]
      exact ⟨rfl, rfl⟩
    · right
      show Tiles 0 setup.blocks.length ((s.sessions.map fun session => session.setPosition p).map ServerSession.span)
      rw [List.map_map]
      exact htiles
  · intro session hsession
    obtain ⟨session', hsession', rfl⟩ := List.mem_map.mp hsession
    exact (h.synced session' hsession').setPosition hp

/-- What a session is for: its steps return what all blocks make of the new tokens after those that it was given, and a
smaller position takes the last ones back. -/
def transcript (setup : SessionSetup α) : List (SessionOp α) → List α → List (List α) × List α
  | [], past => ([], past)
  | .step inputs _ :: ops, past =>
    let (outputs, tokens) := transcript setup ops (past ++ inputs)
    (increment (runBlocks setup.blocks) past inputs :: outputs, tokens)
  | .setPosition p :: ops, past => transcript setup ops (past.take p)

/-- Steps take at least one token, positions are not past the present one, and routes are routes. -/
def Admissible : List (SessionOp α) → List α → Prop
  | [], _ => True
  | .step inputs answers :: ops, past =>
    inputs ≠ [] ∧ (∀ a ∈ answers, a.Lawful) ∧ Admissible ops (past ++ inputs)
  | .setPosition p :: ops, past => p ≤ past.length ∧ Admissible ops (past.take p)

theorem through_all (setup : SessionSetup α) : through setup setup.blocks.length = runBlocks setup.blocks := by
  unfold through
  rw [List.take_length]

/-- A run from a session that holds some tokens. -/
theorem Holds.run {ops : List (SessionOp α)} {s s' : InferenceSession α} (h : Holds setup past s)
    (hadmissible : Admissible ops past) {outputs : List (List α)}
    (hrun : InferenceSession.run setup ops s = some (outputs, s')) :
    outputs = (transcript setup ops past).1 ∧ Holds setup (transcript setup ops past).2 s' := by
  induction ops generalizing past s outputs with
  | nil =>
    cases hrun
    exact ⟨rfl, h⟩
  | cons op ops ih =>
    cases op with
    | step inputs answers =>
      obtain ⟨hne, hlawful, hrest⟩ := hadmissible
      unfold InferenceSession.run at hrun
      split at hrun
      · rename_i output s₁ hstep
        rcases h.step hne hlawful hstep with ⟨houtput, hheld⟩ | ⟨e, herror, -⟩
        · obtain ⟨⟨outputs', s₂⟩, hrest', heq⟩ := Option.map_eq_some_iff.mp hrun
          cases heq
          obtain ⟨houtputs, hheld'⟩ := ih hheld hrest hrest'
          obtain rfl := Except.ok.inj houtput
          refine ⟨?_, hheld'⟩
          rw [houtputs, through_all]
          rfl
        · cases herror
      · cases hrun
    | setPosition p =>
      obtain ⟨hp, hrest⟩ := hadmissible
      obtain ⟨s₁, hset, hheld⟩ := h.setPosition hp
      unfold InferenceSession.run at hrun
      rw [hset] at hrun
      exact ih hheld hrest hrun

/-- With as many attempts that do not fail as there are blocks to come, the loop ends, whatever fails in between. -/
theorem LoopInv.go_completes (hretries : setup.maxRetries = none) {answers : List Answer}
    (h : LoopInv setup past new loop) (hnew : new ≠ []) (hmax : (past ++ new).length ≤ setup.maxLength)
    (hlawful : ∀ a ∈ answers, a.Lawful) {works : List Answer} (hworks : works.Sublist answers)
    (hwork : ∀ a ∈ works, ¬a.Fails) (henough : setup.blocks.length ≤ loop.blockIdx + works.length) :
    ∃ k ≤ answers.length, ∃ loop', StepLoop.go setup past.length new.length (answers.take k) loop =
      some (.ok (increment (through setup setup.blocks.length) past new), loop') ∧ Finished setup past new loop' := by
  induction answers generalizing loop works with
  | nil =>
    obtain rfl := List.sublist_nil.mp hworks
    have hafter : setup.blocks.length ≤ loop.blockIdx := henough
    have hfinished := h.finished hafter
    refine ⟨0, Nat.le_refl _, loop, ?_, hfinished⟩
    rw [List.take_nil, StepLoop.go, if_pos hafter, hfinished.inputs]
  | cons a answers ih =>
    by_cases hafter : setup.blocks.length ≤ loop.blockIdx
    · have hfinished := h.finished hafter
      refine ⟨0, Nat.zero_le _, loop, ?_, hfinished⟩
      rw [List.take_zero, StepLoop.go, if_pos hafter, hfinished.inputs]
    · have hrest : ∀ a' ∈ answers, a'.Lawful := fun a' ha' => hlawful a' (List.mem_cons_of_mem _ ha')
      have hattempted := h.attempt hnew hmax (Nat.lt_of_not_le hafter) (hlawful a List.mem_cons_self)
      cases hattempt : loop.attempt setup past.length new.length a with
      | mk result loop' =>
        rw [hattempt] at hattempted
        cases result with
        | ok u =>
          -- a block more is done, for an attempt less that does not fail
          obtain ⟨hproceeds, hlt⟩ := hattempted
          have hnext : LoopInv setup past new { loop' with attemptNo := 0 } := Or.inl ⟨hproceeds.attemptNo 0, rfl⟩
          obtain ⟨works', hworks', hwork', hlength⟩ : ∃ works' : List Answer, works'.Sublist answers ∧
              (∀ a' ∈ works', ¬a'.Fails) ∧ works.length ≤ works'.length + 1 := by
            cases hworks with
            | cons _ hsub => exact ⟨works, hsub, hwork, Nat.le_succ _⟩
            | cons_cons _ hsub =>
              exact ⟨_, hsub, fun a' ha' => hwork a' (List.mem_cons_of_mem _ ha'), Nat.le_refl _⟩
          obtain ⟨k, hk, loop'', hgo, hfinished⟩ := ih hnext hrest hworks' hwork' (by
            show setup.blocks.length ≤ loop'.blockIdx + works'.length
            omega)
          refine ⟨k + 1, Nat.succ_le_succ hk, loop'', ?_, hfinished⟩
          rw [List.take_succ_cons, StepLoop.go, if_neg hafter, hattempt]
          exact hgo
        | error e =>
          obtain ⟨hretry, hsame, hfails, -⟩ := hattempted
          have hnext : LoopInv setup past new { loop' with attemptNo := loop.attemptNo + 1 } :=
            Or.inr ⟨hretry.attemptNo _, Or.inr (Nat.le_add_left 1 _)⟩
          have hworks' : works.Sublist answers := by
            cases hworks with
            | cons _ hsub => exact hsub
            | cons_cons _ hsub => exact absurd hfails (hwork a List.mem_cons_self)
          obtain ⟨k, hk, loop'', hgo, hfinished⟩ := ih hnext hrest hworks' hwork (by
            show setup.blocks.length ≤ loop'.blockIdx + works.length
            omega)
          refine ⟨k + 1, Nat.succ_le_succ hk, loop'', ?_, hfinished⟩
          have hforever : setup.maxRetries ≠ some (loop.attemptNo + 1) := by
            rw [hretries]
            exact Option.some_ne_none _ ∘ Eq.symm
          rw [List.take_succ_cons, StepLoop.go, if_neg hafter, hattempt]
          dsimp only
          rw [if_neg hforever]
          exact hgo

/-- The sums of the values up to each position. -/
def runningSums : Nat → List Nat → List Nat
  | _, [] => []
  | sum, x :: xs => (sum + x) :: runningSums (sum + x) xs

theorem causal_runningSums (sum : Nat) : Causal (runningSums sum) where
  length xs := by
    induction xs generalizing sum with
    | nil => rfl
    | cons x xs ih => exact congrArg (· + 1) (ih (sum + x))
  take n xs := by
    induction xs generalizing sum n with
    | nil => rw [List.take_nil, runningSums, List.take_nil]
    | cons x xs ih =>
      cases n with
      | zero => rfl
      | succ n => exact congrArg ((sum + x) :: ·) (ih (sum + x) n)

/-- Three blocks, and replays of two tokens at a time. -/
def sampleSetup : SessionSetup Nat where
  blocks := [runningSums 0, runningSums 0, runningSums 0]
  causal := by
    intro block hblock
    simp only [List.mem_cons, List.not_mem_nil, or_false, or_self] at hblock
    rw [hblock]
    exact causal_runningSums 0
  nonempty := List.cons_ne_nil _ _
  maxLength := 8
  replayChunkSize := 2
  batchSize := 1
  maxRetries := none

/-- Two servers for the three blocks, and two for the first two of them. -/
def sampleRoute (a b : Nat) : Option (List BlockSpan) :=
  if a = 0 ∧ b = 3 then some [⟨0, 2⟩, ⟨2, 3⟩]
  else if a = 0 ∧ b = 2 then some [⟨0, 1⟩, ⟨1, 2⟩]
  else some [⟨a, b⟩]

def sampleAnswer (served : Option Nat) : Answer := ⟨sampleRoute, served⟩

theorem lawful_sampleAnswer (served : Option Nat) : (sampleAnswer served).Lawful := by
  intro a b spans hlt hroute
  unfold sampleAnswer sampleRoute at hroute
  dsimp only at hroute
  split_ifs at hroute with hwhole hfirst
  · obtain ⟨rfl, rfl⟩ := hwhole
    obtain rfl := Option.some.inj hroute
    exact ⟨rfl, by decide, rfl, by decide, by decide⟩
  · obtain ⟨rfl, rfl⟩ := hfirst
    obtain rfl := Option.some.inj hroute
    exact ⟨rfl, by decide, rfl, by decide, by decide⟩
  · obtain rfl := Option.some.inj hroute
    exact ⟨rfl, hlt, Nat.le_refl _⟩

/-- The first server fails at the second step, and its replacement in the midst of the replay. Then a position is taken
back. -/
def sampleOps : List (SessionOp Nat) :=
  [.step [1, 2] [sampleAnswer none, sampleAnswer none],
    .step [3] [sampleAnswer (some 0), sampleAnswer (some 1), sampleAnswer none, sampleAnswer none, sampleAnswer none],
    .setPosition 1,
    .step [5] [sampleAnswer none, sampleAnswer none, sampleAnswer none]]

theorem admissible_sampleOps : Admissible sampleOps [] := by
  have hlawful : ∀ served : List (Option Nat), ∀ a ∈ served.map sampleAnswer, a.Lawful := by
    intro served a ha
    obtain ⟨n, -, rfl⟩ := List.mem_map.mp ha
    exact lawful_sampleAnswer n
  exact ⟨by decide, hlawful [none, none], by decide, hlawful [some 0, some 1, none, none, none], by decide, by decide,
    hlawful [none, none, none], trivial⟩

theorem works_sampleAnswer : ¬(sampleAnswer none).Fails := by
  rintro (h | ⟨a, b, -, h⟩)
  · exact h rfl
  · unfold sampleAnswer sampleRoute at h
    dsimp only at h
    split_ifs at h

end Drift.Client
