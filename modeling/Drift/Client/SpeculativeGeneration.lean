import Drift.Client.SessionRecovery
import Drift.Lib.Drafting

/-!
# Speculative generation

A small model drafts the next tokens, the blocks of the servers check all of them in one step of the session, and the
session is taken back to the last token that is kept. The draft and the recovery of the servers change how many steps
it takes, not what is generated.

* `SpeculativeModel.sample` — the loop of `_sample`, for one sequence;
* `Checks.round` — one round of the loop: the tokens that it adds are those that the rule of the exact model adds;
* `speculative_generation_exact` — whole calls.
-/

namespace Drift.Client

open Drift.Lib

variable {α L : Type}

/-! ### Definitions -/

/-- What a call of `_sample` depends on: the embedding of a token, the logits of a hidden state (`norm`, then
`lm_head`), the greatest of the scores that `logits_processor` makes of them, what `small_model.generate` returns for a
number of new tokens, `stopping_criteria`, and `pad_token_id` where a criterion has an `eos_token_id`. -/
structure SpeculativeModel (α L : Type) where
  setup : SessionSetup α
  embed : Nat → α
  logits : α → L
  validToken : List Nat → L → Nat
  smallModel : List Nat → Nat → List Nat
  stoppingCriteria : List Nat → Bool
  padTokenId : Option Nat

/-- The exceptions of a call. -/
inductive SpeculativeFailure
  /-- `small_model.generate` is asked for no token. -/
  | noNewTokens
  /-- The assertion on the length of the drafted sequence. -/
  | draftLength
  /-- No logits of a drafted token. -/
  | index
  | session (e : StepFailure)
  deriving DecidableEq, Repr

/-- `ids[:, :stop]`. -/
def sliceEnd (ids : List Nat) (stop : Int) : List Nat :=
  if stop < 0 then ids.take (ids.length + stop).toNat else ids.take stop.toNat

/-- `ids[:, -n:]`, for a positive `n`. -/
def lastIds {τ : Type} (n : Nat) (ids : List τ) : List τ := ids.drop (ids.length - n)

namespace SpeculativeModel

/-- The loop over the logits: the valid tokens, up to the first one that is not the drafted one. -/
def agreeing (m : SpeculativeModel α L) (size : Nat) (inputs : List Nat) :
    Nat → List L → List Nat → Except SpeculativeFailure (List Nat)
  | _, _, [] => .ok []
  | _, [], _ :: _ => .error .index
  | i, logits :: rest, token :: tokens =>
    let valid := m.validToken (sliceEnd inputs (-size + 1 + i)) logits
    if valid = token then (m.agreeing size inputs (i + 1) rest tokens).map (valid :: ·) else .ok []

/-- `all_valid_tokens`, with the first valid token where no drafted one is. -/
def allValidTokens (m : SpeculativeModel α L) (size : Nat) (inputs : List Nat) (logits : List L) (tokens : List Nat) :
    Except SpeculativeFailure (List Nat) :=
  match m.agreeing size inputs 0 logits tokens, logits with
  | .ok [], first :: _ => .ok [m.validToken (sliceEnd inputs (-size + 1)) first]
  | .ok [], [] => .error .index
  | result, _ => result

/-- "finished sentences should have their next token be a padding token". -/
def padded (m : SpeculativeModel α L) (unfinished : Nat) (tokens : List Nat) : List Nat :=
  match m.padTokenId with
  | some padTokenId => tokens.map fun token => token * unfinished + padTokenId * (1 - unfinished)
  | none => tokens

/-- A round: the tokens that it adds, and the session. `firsts` holds in the first one. -/
def round (m : SpeculativeModel α L) (firsts : Bool) (size : Nat) (ids : List Nat) (s : InferenceSession α)
    (answers : List Answer) : Option (Except SpeculativeFailure (List Nat) × InferenceSession α) :=
  if size = 0 then some (.error .noNewTokens, s)
  else
    let tokens := lastIds size (m.smallModel ids size)
    let fullSequence := ids ++ tokens
    if ids.length + size ≠ fullSequence.length then some (.error .draftLength, s)
    else
      let positioned := if firsts then (.ok (), s) else s.setPosition (ids.length - 1)
      match positioned with
      | (.error e, s₁) => some (.error (.session e), s₁)
      | (.ok (), s₁) =>
        let inputs := (if firsts then fullSequence else lastIds (size + 1) fullSequence).dropLast
        match s₁.step m.setup (inputs.map m.embed) answers with
        | none => none
        | some (.error e, s₂) => some (.error (.session e), s₂)
        | some (.ok outputs, s₂) =>
          some (m.allValidTokens size inputs (lastIds size (outputs.map m.logits)) tokens, s₂)

/-- The loop, with the answers for each of its rounds. -/
def loop (m : SpeculativeModel α L) : List (List Answer) → Bool → Nat → List Nat → InferenceSession α →
    Option (Except SpeculativeFailure (List Nat) × InferenceSession α)
  | [], _, _, _, _ => none
  | answers :: rest, firsts, size, ids, s =>
    match m.round firsts (min size (m.setup.maxLength - ids.length)) ids s answers with
    | none => none
    | some (.error e, s') => if rest.isEmpty then some (.error e, s') else none
    | some (.ok valid, s') =>
      let ids' := ids ++ m.padded 1 valid
      if m.stoppingCriteria ids' then (if rest.isEmpty then some (.ok ids', s') else none)
      else m.loop rest false (min size (m.setup.maxLength - ids.length)) ids' s'

/-- `_sample` in a new session, with `speculative_inference_iteration_size` tokens in a draft. -/
def sample (m : SpeculativeModel α L) (size : Nat) (inputIds : List Nat) (rounds : List (List Answer)) :
    Option (Except SpeculativeFailure (List Nat) × InferenceSession α) :=
  m.loop rounds true size inputIds InferenceSession.start

/-- The token that the exact model goes on with, where scores do not depend on the ids. -/
def nextToken (m : SpeculativeModel α L) (ids : List Nat) : Nat :=
  match (runBlocks m.setup.blocks (ids.map m.embed)).getLast? with
  | some hidden => m.validToken [] (m.logits hidden)
  | none => 0

end SpeculativeModel

namespace SpeculativeModel

variable {m : SpeculativeModel α L}

/-! ### The draft -/

theorem causal_blocks (m : SpeculativeModel α L) : Causal (runBlocks m.setup.blocks) :=
  causal_runBlocks m.setup.causal

/-- The logits at the last of some tokens are those that the next token is taken from, whatever comes after. -/
theorem drop_hidden (hids : ∀ ids ids' l, m.validToken ids l = m.validToken ids' l) {ids : List Nat} (hne : ids ≠ [])
    (more : List Nat) : ∃ hidden, (runBlocks m.setup.blocks ((ids ++ more).map m.embed)).drop (ids.length - 1) =
      hidden :: (runBlocks m.setup.blocks ((ids ++ more).map m.embed)).drop ids.length ∧
        ∀ seen, m.validToken seen (m.logits hidden) = m.nextToken ids := by
  have hcausal := m.causal_blocks
  have hpositive : 0 < ids.length := List.length_pos_of_ne_nil hne
  have hfirst : (runBlocks m.setup.blocks ((ids ++ more).map m.embed)).take ids.length =
      runBlocks m.setup.blocks (ids.map m.embed) := by
    rw [hcausal.take, List.map_append, ← List.length_map m.embed, List.take_left]
  have hlength : (runBlocks m.setup.blocks ((ids ++ more).map m.embed)).length = ids.length + more.length := by
    rw [hcausal.length, List.length_map, List.length_append]
  have hlt : ids.length - 1 < (runBlocks m.setup.blocks ((ids ++ more).map m.embed)).length := by omega
  refine ⟨(runBlocks m.setup.blocks ((ids ++ more).map m.embed))[ids.length - 1], ?_, fun seen => ?_⟩
  · rw [List.drop_eq_getElem_cons hlt, Nat.sub_add_cancel hpositive]
  · have hlast : (runBlocks m.setup.blocks (ids.map m.embed)).getLast? =
        some (runBlocks m.setup.blocks ((ids ++ more).map m.embed))[ids.length - 1] := by
      rw [← hfirst, List.getLast?_eq_getElem?, List.length_take, hlength, Nat.min_eq_left (Nat.le_add_right _ _),
        List.getElem?_take_of_lt (by omega), List.getElem?_eq_getElem hlt]
    unfold nextToken
    rw [hlast]
    exact hids _ _ _

/-- **The loop over the logits** keeps what the exact model would have gone on with. -/
theorem agreeing_eq (hids : ∀ ids ids' l, m.validToken ids l = m.validToken ids' l) {size i : Nat} {inputs : List Nat}
    {ids tokens : List Nat} (hne : ids ≠ []) {whole : List Nat} (hwhole : ids ++ tokens = whole) :
    m.agreeing size inputs i
      (((runBlocks m.setup.blocks (whole.dropLast.map m.embed)).drop (ids.length - 1)).map m.logits) tokens =
        .ok (accepted m.nextToken ids tokens) := by
  induction tokens generalizing ids i with
  | nil => unfold agreeing accepted; rfl
  | cons token tokens ih =>
    have hdrop : whole.dropLast = ids ++ (token :: tokens).dropLast := by
      rw [← hwhole, List.dropLast_append_of_ne_nil (List.cons_ne_nil _ _)]
    obtain ⟨hidden, hhidden, hvalid⟩ := drop_hidden hids hne (token :: tokens).dropLast
    rw [hdrop, hhidden, List.map_cons]
    unfold agreeing accepted
    dsimp only
    rw [hvalid]
    by_cases heq : m.nextToken ids = token
    · rw [if_pos heq, if_pos heq]
      have hone : ids ++ [token] ≠ [] := List.append_ne_nil_of_right_ne_nil _ (List.cons_ne_nil _ _)
      have hrest : ids ++ [token] ++ tokens = whole := by
        rw [List.append_assoc]
        exact hwhole
      have hnext := @ih (i + 1) _ hone hrest
      rw [hdrop, List.length_append, List.length_singleton, Nat.add_sub_cancel] at hnext
      rw [hnext, heq]
      rfl
    · rw [if_neg heq, if_neg heq]

/-- The tokens of a round: what is kept of the draft, or the one token that the exact model goes on with. -/
theorem allValidTokens_eq (hids : ∀ ids ids' l, m.validToken ids l = m.validToken ids' l) {size : Nat}
    {inputs ids tokens : List Nat} (hne : ids ≠ []) (htokens : tokens ≠ []) :
    ∃ valid, m.allValidTokens size inputs
        (((runBlocks m.setup.blocks ((ids ++ tokens).dropLast.map m.embed)).drop (ids.length - 1)).map m.logits)
        tokens = .ok valid ∧ valid ≠ [] ∧ valid.length ≤ tokens.length ∧
      ids ++ valid = continued m.nextToken valid.length ids ∧
      (ids ++ valid).dropLast = (ids ++ tokens).take (ids.length + valid.length - 1) := by
  have hagreeing := @agreeing_eq _ _ m hids size 0 inputs ids tokens hne _ rfl
  have hdrop : (ids ++ tokens).dropLast = ids ++ tokens.dropLast := List.dropLast_append_of_ne_nil htokens
  obtain ⟨hidden, hhidden, hvalid⟩ := drop_hidden hids hne tokens.dropLast
  have hpositive : 0 < tokens.length := List.length_pos_of_ne_nil htokens
  unfold allValidTokens
  rw [hagreeing, hdrop, hhidden, List.map_cons]
  cases haccepted : accepted m.nextToken ids tokens with
  | nil =>
    refine ⟨[m.nextToken ids], ?_, List.cons_ne_nil _ _, hpositive, rfl, ?_⟩
    · dsimp only
      rw [hvalid]
    · rw [List.dropLast_concat, List.length_singleton, Nat.add_sub_cancel, List.take_left]
  | cons first valid =>
    refine ⟨first :: valid, rfl, List.cons_ne_nil _ _, ?_, ?_, ?_⟩
    · rw [← haccepted]
      exact (accepted_isPrefix m.nextToken ids tokens).length_le
    · rw [← haccepted]
      exact append_accepted m.nextToken ids tokens
    · obtain ⟨later, hlater⟩ := accepted_isPrefix m.nextToken ids tokens
      rw [haccepted] at hlater
      rw [← hlater, ← List.append_assoc, List.dropLast_eq_take, List.length_append]
      exact (List.take_append_of_le_length (by rw [List.length_append]; omega)).symm

/-! ### A round -/

/-- The session at the start of a round: new in the first one, and after that it holds all ids but the last, and maybe
tokens that were not kept. -/
def Checks (m : SpeculativeModel α L) (firsts : Bool) (ids : List Nat) (s : InferenceSession α) : Prop :=
  if firsts then s = InferenceSession.start
  else ∃ held : List Nat, Holds m.setup (held.map m.embed) s ∧ ids.length - 1 ≤ held.length ∧
    held.take (ids.length - 1) = ids.dropLast

/-- Up to the step of a round, the session holds the first of the drafted tokens, and the step takes the others. -/
theorem Checks.positioned {firsts : Bool} {ids : List Nat} {s : InferenceSession α} (h : m.Checks firsts ids s)
    (hne : ids ≠ []) {tokens : List Nat} (htokens : tokens ≠ []) : ∃ p ≤ ids.length - 1, ∃ s₁,
      (if firsts then (.ok (), s) else s.setPosition (ids.length - 1)) = (.ok (), s₁) ∧
      (if firsts then ids ++ tokens else lastIds (tokens.length + 1) (ids ++ tokens)).dropLast =
        (ids ++ tokens).dropLast.drop p ∧
      Holds m.setup (((ids ++ tokens).dropLast.take p).map m.embed) s₁ := by
  cases firsts with
  | true =>
    obtain rfl : s = InferenceSession.start := h
    exact ⟨0, Nat.zero_le _, _, rfl, rfl, by rw [List.take_zero]; exact holds_start⟩
  | false =>
    obtain ⟨held, hheld, hle, htake⟩ := h
    have hwithin : ids.length - 1 ≤ (held.map m.embed).length := by
      rw [List.length_map]
      exact hle
    obtain ⟨s₁, hset, hholds⟩ := hheld.setPosition hwithin
    have hpositive : 0 < ids.length := List.length_pos_of_ne_nil hne
    refine ⟨ids.length - 1, le_rfl, s₁, hset, ?_, ?_⟩
    · show (lastIds (tokens.length + 1) (ids ++ tokens)).dropLast = _
      unfold lastIds
      rw [List.length_append, show ids.length + tokens.length - (tokens.length + 1) = ids.length - 1 by omega,
        List.dropLast_eq_take, List.dropLast_eq_take, List.drop_take, List.length_drop]
      congr 1
      omega
    · rw [← List.map_take, htake] at hholds
      have hfirst : (ids ++ tokens).dropLast.take (ids.length - 1) = ids.dropLast := by
        rw [List.dropLast_append_of_ne_nil htokens, List.take_append_of_le_length (Nat.sub_le _ _),
          List.dropLast_eq_take]
      rw [hfirst]
      exact hholds

/-- The logits of the drafted tokens are the last ones, whether or not the ids before were part of the step. -/
theorem lastIds_logits (m : SpeculativeModel α L) {ids tokens : List Nat} (hne : ids ≠ []) (htokens : tokens ≠ [])
    {p : Nat} (hp : p ≤ ids.length - 1) :
    lastIds tokens.length ((increment (through m.setup m.setup.blocks.length)
        (((ids ++ tokens).dropLast.take p).map m.embed) (((ids ++ tokens).dropLast.drop p).map m.embed)).map m.logits) =
      ((runBlocks m.setup.blocks ((ids ++ tokens).dropLast.map m.embed)).drop (ids.length - 1)).map m.logits := by
  have hpositive : 0 < ids.length := List.length_pos_of_ne_nil hne
  have hdrafted : 0 < tokens.length := List.length_pos_of_ne_nil htokens
  have hwhole : ((ids ++ tokens).dropLast.map m.embed).length = ids.length + tokens.length - 1 := by
    rw [List.length_map, List.length_dropLast, List.length_append]
  rw [through_all, List.map_take, List.map_drop, m.causal_blocks.increment_take]
  unfold lastIds
  rw [← List.map_drop, List.length_map, List.length_drop, m.causal_blocks.length, hwhole, List.drop_drop]
  congr 2
  omega

/-- What a round may raise. -/
def Raises (m : SpeculativeModel α L) (size : Nat) (ids : List Nat) (answers : List Answer) :
    SpeculativeFailure → Prop
  | .noNewTokens => size = 0
  | .draftLength => (lastIds size (m.smallModel ids size)).length ≠ size
  | .index => False
  | .session e => (e = .route ∨ e = .request) ∧ ∃ a ∈ answers, a.Fails

/-- **A round** adds at least one token, and those that it adds are those of the exact model. -/
theorem Checks.round (hids : ∀ ids ids' l, m.validToken ids l = m.validToken ids' l) {firsts : Bool} {size : Nat}
    {ids : List Nat} {s s' : InferenceSession α} (h : m.Checks firsts ids s) (hne : ids ≠ [])
    (hroom : size ≤ m.setup.maxLength - ids.length) {answers : List Answer} (hlawful : ∀ a ∈ answers, a.Lawful)
    {result : Except SpeculativeFailure (List Nat)} (hround : m.round firsts size ids s answers = some (result, s')) :
    (∃ valid, result = .ok valid ∧ valid ≠ [] ∧ valid.length ≤ size ∧
        ids ++ valid = continued m.nextToken valid.length ids ∧ m.Checks false (ids ++ valid) s') ∨
      ∃ e, result = .error e ∧ m.Raises size ids answers e := by
  unfold SpeculativeModel.round at hround
  split at hround
  · rename_i hzero
    cases hround
    exact .inr ⟨_, rfl, hzero⟩
  rename_i hsize
  dsimp only at hround
  generalize htokens : lastIds size (m.smallModel ids size) = tokens at hround
  split at hround
  · rename_i hlength
    cases hround
    refine .inr ⟨_, rfl, ?_⟩
    show (lastIds size (m.smallModel ids size)).length ≠ size
    rw [htokens]
    rw [List.length_append] at hlength
    omega
  rename_i hlength
  obtain rfl : tokens.length = size := by
    rw [List.length_append] at hlength
    omega
  have hdraft : tokens ≠ [] := fun hnil => hsize (by rw [hnil, List.length_nil])
  have hpositive : 0 < ids.length := List.length_pos_of_ne_nil hne
  -- with the first `p` of the tokens in the session, the first round is like any other
  obtain ⟨p, hp, s₁, hpositioned, hinputs, hholds⟩ := h.positioned hne hdraft
  rw [hpositioned, hinputs] at hround
  dsimp only at hround
  have hwhole : ((ids ++ tokens).dropLast.map m.embed).length = ids.length + tokens.length - 1 := by
    rw [List.length_map, List.length_dropLast, List.length_append]
  have hsplit : ((ids ++ tokens).dropLast.take p).map m.embed ++ ((ids ++ tokens).dropLast.drop p).map m.embed =
      (ids ++ tokens).dropLast.map m.embed := by
    rw [← List.map_append, List.take_append_drop]
  have hmax : (((ids ++ tokens).dropLast.take p).map m.embed ++
      ((ids ++ tokens).dropLast.drop p).map m.embed).length ≤ m.setup.maxLength := by
    rw [hsplit, hwhole]
    omega
  have hnew : ((ids ++ tokens).dropLast.drop p).map m.embed ≠ [] := by
    refine List.ne_nil_of_length_pos ?_
    rw [List.length_map, List.length_drop, List.length_dropLast, List.length_append]
    omega
  cases hstep : s₁.step m.setup (((ids ++ tokens).dropLast.drop p).map m.embed) answers with
  | none =>
    rw [hstep] at hround
    cases hround
  | some stepped =>
    obtain ⟨stepped, s₂⟩ := stepped
    rw [hstep] at hround
    rcases hholds.step_within hnew hmax hlawful hstep with ⟨rfl, hheld⟩ | ⟨e, rfl, hfailed⟩
    · have hlogits := m.lastIds_logits hne hdraft hp
      obtain ⟨valid, hvalid, hne', hle, hcontinued, hdropLast⟩ :=
        @allValidTokens_eq _ _ m hids tokens.length ((ids ++ tokens).dropLast.drop p) ids tokens hne hdraft
      dsimp only at hround
      rw [hlogits, hvalid] at hround
      cases hround
      refine .inl ⟨valid, rfl, hne', hle, hcontinued, (ids ++ tokens).dropLast, hsplit ▸ hheld, ?_, ?_⟩
      · rw [List.length_append, List.length_dropLast, List.length_append]
        omega
      · rw [hdropLast, List.dropLast_eq_take, List.take_take, List.length_append, List.length_append]
        congr 1
        omega
    · dsimp only at hround
      cases hround
      exact .inr ⟨_, rfl, hfailed⟩

end SpeculativeModel

/-! ### Whole calls -/

namespace SpeculativeModel

variable {m : SpeculativeModel α L}

theorem padded_unfinished (m : SpeculativeModel α L) (tokens : List Nat) : m.padded 1 tokens = tokens := by
  unfold padded
  split
  · rw [show (fun token => token * 1 + _ * (1 - 1)) = id from funext fun token => by simp, List.map_id]
  · rfl

/-- The loop, from any round on. -/
theorem Checks.loop (hids : ∀ ids ids' l, m.validToken ids l = m.validToken ids' l) {rounds : List (List Answer)}
    {firsts : Bool} {size : Nat} {ids : List Nat} {s s' : InferenceSession α} (h : m.Checks firsts ids s)
    (hne : ids ≠ []) (hlawful : ∀ answers ∈ rounds, ∀ a ∈ answers, a.Lawful)
    {result : Except SpeculativeFailure (List Nat)} (hloop : m.loop rounds firsts size ids s = some (result, s')) :
    (∃ n, result = .ok (continued m.nextToken n ids) ∧ rounds.length ≤ n ∧ n ≤ rounds.length * size ∧
        ids.length + n ≤ m.setup.maxLength ∧ m.stoppingCriteria (continued m.nextToken n ids) = true) ∨
      ∃ e n, ∃ answers ∈ rounds, result = .error e ∧
        m.Raises (min size (m.setup.maxLength - (ids.length + n))) (continued m.nextToken n ids) answers e := by
  induction rounds generalizing firsts size ids s with
  | nil => cases hloop
  | cons answers rest ih =>
    unfold SpeculativeModel.loop at hloop
    cases hround : m.round firsts (min size (m.setup.maxLength - ids.length)) ids s answers with
    | none =>
      rw [hround] at hloop
      cases hloop
    | some rounded =>
      obtain ⟨rounded, s₁⟩ := rounded
      rw [hround] at hloop
      rcases h.round hids hne (Nat.min_le_right _ _) (hlawful answers List.mem_cons_self) hround with
        ⟨valid, rfl, hvalid, hle, hcontinued, hchecks⟩ | ⟨e, rfl, hraises⟩
      · have hpositive : 0 < valid.length := List.length_pos_of_ne_nil hvalid
        dsimp only at hloop
        rw [m.padded_unfinished] at hloop
        split at hloop
        · rename_i hstop
          split at hloop
          · rename_i hlast
            obtain rfl := List.isEmpty_iff.mp hlast
            cases hloop
            rw [hcontinued] at hstop
            refine .inl ⟨valid.length, congrArg Except.ok hcontinued, hpositive, ?_, by omega, hstop⟩
            rw [List.length_singleton, Nat.one_mul]
            omega
          · cases hloop
        · -- the drafts only get shorter, by what the session has room for
          have hnext := ih hchecks (List.append_ne_nil_of_left_ne_nil hne _)
            (fun answers' h' => hlawful answers' (List.mem_cons_of_mem _ h')) hloop
          rw [List.length_append, hcontinued] at hnext
          rcases hnext with ⟨n, hresult, hrounds, hsize, hmax, hstop⟩ | ⟨e, n, answers', hmem, hresult, hraises⟩
          · rw [← continued_add] at hresult hstop
            refine .inl ⟨valid.length + n, hresult, ?_, ?_, by omega, hstop⟩
            · rw [List.length_cons]
              omega
            · calc valid.length + n ≤ size + rest.length * size := by
                    refine Nat.add_le_add (hle.trans (Nat.min_le_left _ _)) (hsize.trans ?_)
                    exact Nat.mul_le_mul_left _ (Nat.min_le_left _ _)
                _ = (answers :: rest).length * size := by rw [List.length_cons, Nat.succ_mul, Nat.add_comm]
          · rw [← continued_add] at hraises
            refine .inr ⟨e, valid.length + n, answers', List.mem_cons_of_mem _ hmem, hresult, ?_⟩
            have hsize : min (min size (m.setup.maxLength - ids.length))
                (m.setup.maxLength - (ids.length + valid.length + n)) =
                min size (m.setup.maxLength - (ids.length + (valid.length + n))) := by
              omega
            rw [← hsize]
            exact hraises
      · dsimp only at hloop
        split at hloop
        · cases hloop
          exact .inr ⟨e, 0, answers, List.mem_cons_self, rfl, hraises⟩
        · cases hloop

end SpeculativeModel

/-- A model with the sample's blocks. The small model drafts the same token over and over. -/
def sampleSpeculative : SpeculativeModel Nat Nat where
  setup := sampleSetup
  embed := id
  logits := id
  validToken _ logits := logits % 5
  smallModel ids size := ids ++ List.replicate size 2
  stoppingCriteria ids := decide (6 ≤ ids.length)
  padTokenId := some 0

/-- In the second round the first server fails, and its blocks are split anew. -/
def sampleRounds : List (List Answer) :=
  [[none, none], [some 0, none, none, none], [none, none, none], [none, none, none]].map (·.map sampleAnswer)

end Drift.Client
