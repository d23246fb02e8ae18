import Drift.Client.InferenceSession

/-!
# The steps of a server session

What one server of an inference session has is what its blocks were given of the tokens of the session. A step adds the
new tokens to it. A new server is given what the client has kept of them, at once or in chunks, and then has the same.

* `serve_eq` — a server with the caches of a past computes what the blocks add to it;
* `Synced` — a server session that holds a past, in its history and in the caches of its server;
* `Synced.plainStep`, `Synced.setPosition` — a step, and a smaller position;
* `Synced.replayChunks`, `Pending.step` — a replay, and what is left where it fails.
-/

namespace Drift.Client

open Drift.Lib

variable {α : Type} {setup : SessionSetup α}

/-! ### Blocks -/

/-- Blocks one after the other. -/
def runBlocks : List (List α → List α) → List α → List α
  | [], xs => xs
  | block :: blocks, xs => runBlocks blocks (block xs)

/-- What each block is given. -/
def cachesOf : List (List α → List α) → List α → List (List α)
  | [], _ => []
  | block :: blocks, xs => xs :: cachesOf blocks (block xs)

theorem runBlocks_append (blocks blocks' : List (List α → List α)) (xs : List α) :
    runBlocks (blocks ++ blocks') xs = runBlocks blocks' (runBlocks blocks xs) := by
  induction blocks generalizing xs with
  | nil => rfl
  | cons block blocks ih => exact ih (block xs)

theorem causal_runBlocks {blocks : List (List α → List α)} (h : ∀ block ∈ blocks, Causal block) :
    Causal (runBlocks blocks) := by
  induction blocks with
  | nil => exact Causal.id
  | cons block blocks ih =>
    have hrest := ih fun b hb => h b (List.mem_cons_of_mem _ hb)
    exact hrest.comp (h block List.mem_cons_self)

/-- The caches of the first tokens are the first parts of the caches. -/
theorem map_take_cachesOf {blocks : List (List α → List α)} (h : ∀ block ∈ blocks, Causal block) (n : Nat)
    (xs : List α) : (cachesOf blocks xs).map (·.take n) = cachesOf blocks (xs.take n) := by
  induction blocks generalizing xs with
  | nil => rfl
  | cons block blocks ih =>
    show xs.take n :: (cachesOf blocks (block xs)).map (·.take n) = xs.take n :: cachesOf blocks (block (xs.take n))
    rw [ih fun b hb => h b (List.mem_cons_of_mem _ hb), (h block List.mem_cons_self).take]

theorem cachesOf_nil {blocks : List (List α → List α)} (h : ∀ block ∈ blocks, Causal block) :
    cachesOf blocks ([] : List α) = List.replicate blocks.length [] := by
  induction blocks with
  | nil => rfl
  | cons block blocks ih =>
    show [] :: cachesOf blocks (block []) = [] :: List.replicate blocks.length []
    rw [(h block List.mem_cons_self).nil, ih fun b hb => h b (List.mem_cons_of_mem _ hb)]

/-- **A server** whose caches hold a past computes what its blocks add to it, and holds the new tokens too. -/
theorem serve_eq {blocks : List (List α → List α)} (h : ∀ block ∈ blocks, Causal block) {caches : List (List α)}
    {past : List α} (hcaches : caches.map (·.take past.length) = cachesOf blocks past) (xs : List α) :
    serve blocks past.length caches xs = (cachesOf blocks (past ++ xs), increment (runBlocks blocks) past xs) := by
  induction blocks generalizing caches past xs with
  | nil =>
    have hnew : increment (runBlocks []) past xs = xs := by
      show (past ++ xs).drop past.length = xs
      exact List.drop_left
    rw [hnew]
    rfl
  | cons block blocks ih =>
    obtain ⟨cache, caches, rfl⟩ : ∃ cache caches', caches = cache :: caches' := by
      cases caches with
      | nil => cases hcaches
      | cons cache caches => exact ⟨cache, caches, rfl⟩
    obtain ⟨hcache, hcaches⟩ := List.cons.inj hcaches
    have hblock := h block List.mem_cons_self
    have hrest : ∀ b ∈ blocks, Causal b := fun b hb => h b (List.mem_cons_of_mem _ hb)
    have hlength := hblock.length past
    have hnext : serve blocks past.length caches (increment block past xs) =
        (cachesOf blocks (block past ++ increment block past xs),
          increment (runBlocks blocks) (block past) (increment block past xs)) := by
      rw [← hlength]
      exact ih hrest (by rw [hlength]; exact hcaches) _
    have hcache : cache.take past.length = past := hcache
    unfold serve
    dsimp only
    rw [hcache]
    show ((past ++ xs) :: (serve blocks past.length caches (increment block past xs)).1,
      (serve blocks past.length caches (increment block past xs)).2) = _
    rw [hnext, ← hblock.append]
    exact congrArg (Prod.mk _) (hblock.increment_comp (runBlocks blocks) past xs).symm

/-- What the first blocks make of tokens. -/
def through (setup : SessionSetup α) (b : Nat) : List α → List α := runBlocks (setup.blocks.take b)

theorem causal_through (setup : SessionSetup α) (b : Nat) : Causal (through setup b) :=
  causal_runBlocks fun block hblock => setup.causal block (List.mem_of_mem_take hblock)

theorem causal_spanBlocks (span : BlockSpan) : ∀ block ∈ setup.spanBlocks span, Causal block :=
  fun block hblock => setup.causal block (List.mem_of_mem_take (List.mem_of_mem_drop hblock))

theorem through_stop {span : BlockSpan} (h : span.start ≤ span.stop) :
    through setup span.stop = runBlocks (setup.spanBlocks span) ∘ through setup span.start := by
  funext xs
  have hsplit : setup.blocks.take span.stop = setup.blocks.take span.start ++ setup.spanBlocks span := by
    unfold SessionSetup.spanBlocks
    have hfirst : (setup.blocks.take span.stop).take span.start = setup.blocks.take span.start := by
      rw [List.take_take, Nat.min_eq_left h]
    rw [← hfirst, List.take_append_drop]
  unfold through
  rw [hsplit, runBlocks_append]
  rfl

/-! ### The steps of a server session -/

/-- The session holds a past: its own history, and the caches of its server, which may hold more. -/
structure Synced (setup : SessionSetup α) (past : List α) (s : ServerSession α) : Prop where
  position : s.position = past.length
  history : s.history = if past = [] then none else some (through setup s.span.start past)
  replayTarget : s.replayTarget = none
  opened : s.closed = false
  stepped : s.stepped = false → past = []
  prefixLength : past.length ≤ s.prefixLength
  caches : s.caches.map (·.take past.length) = cachesOf (setup.spanBlocks s.span) (through setup s.span.start past)

/-- The span lies within the blocks. -/
structure Within (setup : SessionSetup α) (span : BlockSpan) : Prop where
  lt : span.start < span.stop
  le : span.stop ≤ setup.blocks.length

theorem length_spanBlocks {span : BlockSpan} (h : Within setup span) :
    (setup.spanBlocks span).length = span.stop - span.start := by
  unfold SessionSetup.spanBlocks
  rw [List.length_drop, List.length_take, Nat.min_eq_left h.le]

theorem caches_create {span : BlockSpan} (h : Within setup span) :
    (ServerSession.create span : ServerSession α).caches.map (·.take 0) =
      cachesOf (setup.spanBlocks span) (through setup span.start []) := by
  rw [(causal_through setup span.start).nil, cachesOf_nil (causal_spanBlocks span), length_spanBlocks h]
  show (List.replicate _ []).map _ = _
  rw [List.map_replicate]
  rfl

theorem Synced.create {span : BlockSpan} (h : Within setup span) : Synced setup [] (ServerSession.create span) where
  position := rfl
  history := rfl
  replayTarget := rfl
  opened := rfl
  stepped _ := rfl
  prefixLength := Nat.zero_le _
  caches := caches_create h

/-- **A smaller position**: the session holds the first tokens of its past. -/
theorem Synced.setPosition {past : List α} {s : ServerSession α} (h : Synced setup past s) {p : Nat}
    (hp : p ≤ past.length) : Synced setup (past.take p) (s.setPosition p) where
  position := by
    rw [List.length_take, Nat.min_eq_left hp]
    rfl
  history := by
    show s.history.bind _ = _
    rw [h.history]
    by_cases hpast : past = []
    · rw [if_pos hpast, hpast, List.take_nil, if_pos rfl]
      rfl
    · rw [if_neg hpast, Option.bind_some, (causal_through setup s.span.start).length, if_pos hp]
      by_cases hzero : p = 0
      · rw [if_pos hzero, hzero, List.take_zero, if_pos rfl]
      · have htake : past.take p ≠ [] := by
          intro hnil
          rcases List.take_eq_nil_iff.mp hnil with hnil | hnil
          · exact hzero hnil
          · exact hpast hnil
        rw [if_neg hzero, if_neg htake, (causal_through setup s.span.start).take]
        rfl
  replayTarget := h.replayTarget
  opened := h.opened
  stepped hstepped := by
    rw [h.stepped hstepped, List.take_nil]
  prefixLength := by
    rw [List.length_take, Nat.min_eq_left hp]
    exact Nat.le_trans hp h.prefixLength
  caches := by
    rw [List.length_take, Nat.min_eq_left hp]
    show s.caches.map (·.take p) = cachesOf (setup.spanBlocks s.span) (through setup s.span.start (past.take p))
    have hcaches := congrArg (List.map (·.take p)) h.caches
    rw [map_take_cachesOf (causal_spanBlocks s.span), (causal_through setup s.span.start).take, List.map_map] at hcaches
    rw [← hcaches]
    refine List.map_congr_left fun cache _ => ?_
    show cache.take p = (cache.take past.length).take p
    rw [List.take_take, Nat.min_eq_left hp]

/-- A step of a session left its span and its history alone, but for the new tokens. -/
structure Broken (setup : SessionSetup α) (all : List α) (s s' : ServerSession α) : Prop where
  span : s'.span = s.span
  history : s'.history = some (through setup s.span.start all)

theorem lastTokens_length (xs : List α) : lastTokens xs.length xs = xs := by
  unfold lastTokens
  split_ifs
  · rfl
  · rw [Nat.sub_self, List.drop_zero]

/-- What a session that holds a past sends for new tokens. -/
theorem Synced.prepare {past : List α} {s : ServerSession α} (h : Synced setup past s) (new : List α) :
    s.prepare (increment (through setup s.span.start) past new) =
      (.ok (increment (through setup s.span.start) past new),
        { s with history := some (through setup s.span.start (past ++ new)) }) := by
  have hcausal := causal_through setup s.span.start
  have hextended : s.extended (increment (through setup s.span.start) past new) =
      through setup s.span.start (past ++ new) := by
    unfold ServerSession.extended
    rw [h.history]
    by_cases hpast : past = []
    · rw [if_pos hpast, hpast]
      rfl
    · rw [if_neg hpast]
      dsimp only
      rw [hcausal.length, h.position, if_pos rfl, lastTokens_length, ← hcausal.append]
  have hlength : (through setup s.span.start (past ++ new)).length =
      s.position + (increment (through setup s.span.start) past new).length := by
    rw [hcausal.length, hcausal.length_increment, h.position, List.length_append]
  have hsent : (if s.stepped then lastTokens (increment (through setup s.span.start) past new).length
      (increment (through setup s.span.start) past new) else through setup s.span.start (past ++ new)) =
      increment (through setup s.span.start) past new := by
    cases hstepped : s.stepped with
    | true => exact lastTokens_length _
    | false =>
      rw [h.stepped hstepped]
      rfl
  unfold ServerSession.prepare
  rw [h.replayTarget]
  dsimp only
  rw [hextended, if_neg (not_not.mpr hlength), hsent]

/-- The session after its server has answered. -/
def answered (setup : SessionSetup α) (all : List α) (position : Nat) (s : ServerSession α) : ServerSession α :=
  { s with
    stepped := true
    prefixLength := all.length
    caches := cachesOf (setup.spanBlocks s.span) (through setup s.span.start all)
    position := position
    replayTarget := none }

/-- **A request** to a server that holds the past. -/
theorem request_eq {past : List α} {s : ServerSession α} (hwithin : Within setup s.span)
    (hposition : s.position = past.length) (hreaches : past.length ≤ s.prefixLength)
    (hcaches : s.caches.map (·.take past.length) = cachesOf (setup.spanBlocks s.span) (through setup s.span.start past))
    {new : List α} (hmax : past.length + new.length ≤ setup.maxLength) (n : Nat) :
    s.request setup false n (increment (through setup s.span.start) past new) =
      (.ok (increment (through setup s.span.stop) past new), answered setup (past ++ new) (past.length + n) s) := by
  have hcausal := causal_through setup s.span.start
  have hlength := hcausal.length_increment past new
  have hserved : serve (setup.spanBlocks s.span) s.position s.caches (increment (through setup s.span.start) past new) =
      (cachesOf (setup.spanBlocks s.span) (through setup s.span.start (past ++ new)),
        increment (through setup s.span.stop) past new) := by
    have hpast := hcausal.length past
    rw [hposition, ← hpast, serve_eq (causal_spanBlocks s.span) (by rw [hpast]; exact hcaches), ← hcausal.append,
      through_stop (Nat.le_of_lt hwithin.lt), hcausal.increment_comp]
  have haccepted : ¬(false = true ∨ s.prefixLength < s.position ∨
      setup.maxLength < s.position + (increment (through setup s.span.start) past new).length) := by
    rw [hposition, hlength]
    simp only [Bool.false_eq_true, false_or]
    omega
  have houtputs : ¬(increment (through setup s.span.stop) past new).length ≠
      (increment (through setup s.span.start) past new).length := by
    rw [hlength, (causal_through setup s.span.stop).length_increment]
    exact not_not.mpr rfl
  unfold ServerSession.request
  rw [if_neg haccepted, hserved]
  dsimp only
  rw [if_neg houtputs, hlength, hposition, ← List.length_append]
  rfl

theorem request_fails (s : ServerSession α) (n : Nat) (inputs : List α) :
    s.request setup true n inputs = (.error .request, { s with stepped := true }) := by
  unfold ServerSession.request
  rw [if_pos (Or.inl rfl)]

/-- A session that holds all tokens, after its server has answered. -/
theorem synced_answered {all : List α} (hall : all ≠ []) {s : ServerSession α} (hopened : s.closed = false)
    (hhistory : s.history = some (through setup s.span.start all)) :
    Synced setup all (answered setup all all.length s) where
  position := rfl
  history := by
    rw [if_neg hall]
    exact hhistory
  replayTarget := rfl
  opened := hopened
  stepped hstepped := Bool.noConfusion hstepped
  prefixLength := Nat.le_refl _
  caches := by
    show (cachesOf (setup.spanBlocks s.span) (through setup s.span.start all)).map (·.take all.length) = _
    have hlength := (causal_through setup s.span.start).length all
    rw [map_take_cachesOf (causal_spanBlocks s.span), ← hlength, List.take_length]
    rfl

/-- **A step** of a session that holds a past, where its server answers. -/
theorem Synced.plainStep {past : List α} {s : ServerSession α} (h : Synced setup past s)
    (hwithin : Within setup s.span) {new : List α} (hnew : new ≠ [])
    (hmax : past.length + new.length ≤ setup.maxLength) :
    ∃ s', s.plainStep setup false (increment (through setup s.span.start) past new) =
        (.ok (increment (through setup s.span.stop) past new), s') ∧
      s'.span = s.span ∧ Synced setup (past ++ new) s' := by
  have hall : past ++ new ≠ [] := fun hnil => hnew (List.append_eq_nil_iff.mp hnil).2
  let s₁ : ServerSession α := { s with history := some (through setup s.span.start (past ++ new)) }
  have hrequest : s₁.request setup false (increment (through setup s.span.start) past new).length
      (increment (through setup s.span.start) past new) = _ :=
    request_eq (s := s₁) hwithin h.position h.prefixLength h.caches hmax _
  refine ⟨answered setup (past ++ new) (past ++ new).length s₁, ?_, rfl, synced_answered hall h.opened rfl⟩
  unfold ServerSession.plainStep
  rw [h.prepare]
  dsimp only
  rw [hrequest, (causal_through setup s.span.start).length_increment, List.length_append]

/-- Where the server fails, the history has the new tokens. -/
theorem Synced.plainStep_fails {past : List α} {s : ServerSession α} (h : Synced setup past s) (new : List α) :
    ∃ s', s.plainStep setup true (increment (through setup s.span.start) past new) = (.error .request, s') ∧
      Broken setup (past ++ new) s s' := by
  refine ⟨{ s with history := some (through setup s.span.start (past ++ new)), stepped := true }, ?_, rfl, rfl⟩
  unfold ServerSession.plainStep
  rw [h.prepare]
  dsimp only
  rw [request_fails]

/-! ### Replays -/

section Chunks

open ServerSession

theorem flatten_chunks_aux (k m : Nat) (xs : List α) :
    ((List.range m).map fun i => (xs.drop (i * k)).take k).flatten = xs.take (m * k) := by
  induction m with
  | zero => rw [Nat.zero_mul, List.take_zero, List.range_zero, List.map_nil, List.flatten_nil]
  | succ m ih =>
    rw [List.range_succ, List.map_append, List.flatten_append, ih, List.map_singleton, List.flatten_singleton,
      Nat.succ_mul, List.take_add]

/-- The chunks are all of the history. -/
theorem flatten_chunks {k : Nat} (hk : 1 ≤ k) (xs : List α) : (chunks k xs).flatten = xs := by
  have hcover : xs.length ≤ (xs.length + k - 1) / k * k := by
    have hmod := Nat.div_add_mod (xs.length + k - 1) k
    have hlt := Nat.mod_lt (xs.length + k - 1) hk
    rw [Nat.mul_comm] at hmod
    omega
  unfold chunks
  rw [flatten_chunks_aux, List.take_of_length_le hcover]

theorem chunk_ne_nil {k : Nat} (hk : 1 ≤ k) {xs chunk : List α} (h : chunk ∈ chunks k xs) : chunk ≠ [] := by
  obtain ⟨i, hi, rfl⟩ := List.mem_map.mp h
  have hlt : i * k < xs.length := by
    have hle := (Nat.le_div_iff_mul_le hk).mp (Nat.succ_le_of_lt (List.mem_range.mp hi))
    rw [Nat.succ_mul] at hle
    omega
  intro hnil
  have hlength := congrArg List.length hnil
  rw [List.length_take, List.length_drop, List.length_nil] at hlength
  omega

end Chunks

/-- **Chunks** that are sent one after the other do what the whole of them does. -/
theorem Synced.replayChunks {past new : List α} {s : ServerSession α} (h : Synced setup past s)
    (hwithin : Within setup s.span) {chunks : List (List α)} (hne : ∀ chunk ∈ chunks, chunk ≠ [])
    (hflatten : chunks.flatten = increment (through setup s.span.start) past new)
    (hmax : past.length + new.length ≤ setup.maxLength) (served : Option Nat) :
    (∃ s', s.replayChunks setup chunks served = (.ok (increment (through setup s.span.stop) past new), s') ∧
        s'.span = s.span ∧ Synced setup (past ++ new) s') ∨
      ∃ s', s.replayChunks setup chunks served = (.error .request, s') ∧ s'.span = s.span ∧ served ≠ none := by
  have hcausal := causal_through setup s.span.start
  induction chunks generalizing past new s served with
  | nil =>
    have hnil : new = [] := by
      have hlength := hcausal.length_increment past new
      rw [← hflatten] at hlength
      exact List.eq_nil_of_length_eq_zero hlength.symm
    have houtput : increment (through setup s.span.stop) past [] = [] := by
      refine List.eq_nil_of_length_eq_zero ?_
      rw [(causal_through setup s.span.stop).length_increment]
      rfl
    rw [hnil, houtput, List.append_nil]
    exact Or.inl ⟨s, rfl, rfl, h⟩
  | cons chunk chunks ih =>
    have hsplit : new = new.take chunk.length ++ new.drop chunk.length := (List.take_append_drop _ _).symm
    have hchunk : chunk = increment (through setup s.span.start) past (new.take chunk.length) := by
      rw [← hcausal.take_increment, ← hflatten, List.flatten_cons, List.take_left]
    have hrest : chunks.flatten =
        increment (through setup s.span.start) (past ++ new.take chunk.length) (new.drop chunk.length) := by
      have hwhole := hcausal.increment_append past (new.take chunk.length) (new.drop chunk.length)
      rw [← hsplit, ← hflatten, List.flatten_cons, ← hchunk] at hwhole
      exact List.append_cancel_left hwhole
    have hlength : new.length = (new.take chunk.length).length + (new.drop chunk.length).length := by
      rw [← List.length_append, ← hsplit]
    have hfirst : new.take chunk.length ≠ [] := by
      intro hnil
      rw [hnil] at hchunk
      have hzero := congrArg List.length hchunk
      rw [hcausal.length_increment] at hzero
      exact hne chunk List.mem_cons_self (List.eq_nil_of_length_eq_zero hzero)
    unfold ServerSession.replayChunks
    by_cases hserved : served = some 0
    · obtain ⟨s', hstep, hbroken⟩ := h.plainStep_fails (new.take chunk.length)
      rw [decide_eq_true hserved]
      rw [← hchunk] at hstep
      rw [hstep]
      exact Or.inr ⟨s', rfl, hbroken.span, fun hnone => Option.some_ne_none 0 (hserved.symm.trans hnone)⟩
    · obtain ⟨s', hstep, hspan, hsynced⟩ := h.plainStep hwithin hfirst (by omega)
      rw [decide_eq_false hserved]
      rw [← hchunk] at hstep
      rw [hstep]
      dsimp only
      have hnext := ih hsynced (hspan ▸ hwithin) (fun c hc => hne c (List.mem_cons_of_mem _ hc))
        (by rw [hspan]; exact hrest) (by rw [List.length_append]; omega) (served.map (· - 1)) (hspan ▸ hcausal)
      rw [List.append_assoc, ← hsplit, hspan] at hnext
      rcases hnext with ⟨s'', hrun, hspan', hsynced'⟩ | ⟨s'', hrun, hspan', hnone⟩
      · rw [hrun]
        dsimp only
        rw [← (causal_through setup s.span.stop).increment_append, ← hsplit]
        exact Or.inl ⟨s'', rfl, hspan', hsynced'⟩
      · rw [hrun]
        refine Or.inr ⟨s'', rfl, hspan', fun hnone' => hnone ?_⟩
        rw [hnone']
        rfl

/-- A new session that is to send a history again, with the inputs that it will be given: together they are all that
its blocks are to be given. -/
structure Pending (setup : SessionSetup α) (all inputs : List α) (s : ServerSession α) : Prop where
  created : ∃ history, s = (ServerSession.create s.span).prepareForReplay history all.length
  restored : s.restored all.length inputs = some (through setup s.span.start all)

theorem length_lastTokens {n : Nat} (hn : n ≠ 0) (xs : List α) : lastTokens n xs = xs.drop (xs.length - n) := by
  unfold lastTokens
  rw [if_neg hn]

/-- A history that has the past, and inputs that have the new tokens, are enough. -/
theorem pending_of_history {all : List α} {span : BlockSpan} {m k : Nat} (hkm : k ≤ m) (hm : m ≤ all.length) :
    Pending setup all ((through setup span.start all).drop k)
      ((ServerSession.create span).prepareForReplay (some ((through setup span.start all).take m)) all.length) where
  created := ⟨_, rfl⟩
  restored := by
    have hlength := (causal_through setup span.start).length all
    show (if ((through setup span.start all).take m).length < all.length then _ else _) = _
    rw [List.length_take, hlength, Nat.min_eq_left hm]
    by_cases hlt : m < all.length
    · have henough : all.length - m ≤ ((through setup span.start all).drop k).length := by
        rw [List.length_drop, hlength]
        omega
      have hmissing : lastTokens (all.length - m) ((through setup span.start all).drop k) =
          (through setup span.start all).drop m := by
        rw [length_lastTokens (by omega), List.drop_drop, List.length_drop, hlength]
        congr 1
        omega
      rw [if_pos hlt, if_pos henough, hmissing, List.take_append_drop]
      rfl
    · have htake : (through setup span.start all).take m = through setup span.start all :=
        List.take_of_length_le (by omega)
      rw [if_neg hlt, htake]
      rfl

/-- Without a history, the inputs are all there is. -/
theorem pending_of_inputs (all : List α) (span : BlockSpan) :
    Pending setup all (through setup span.start all)
      ((ServerSession.create span).prepareForReplay none all.length) where
  created := ⟨_, rfl⟩
  restored := rfl

/-- **A replay**: the session ends up with all tokens and returns what its blocks make of them, or a request fails and
the whole history is kept. -/
theorem Pending.step {all inputs : List α} {s : ServerSession α} (h : Pending setup all inputs s)
    (hwithin : Within setup s.span) (hall : all ≠ []) (hmax : all.length ≤ setup.maxLength) (served : Option Nat) :
    (∃ s', s.step setup served inputs = (.ok (through setup s.span.stop all), s') ∧ s'.span = s.span ∧
        Synced setup all s') ∨
      ∃ s', s.step setup served inputs = (.error .request, s') ∧ Broken setup all s s' ∧ served ≠ none := by
  have hcausal := causal_through setup s.span.start
  obtain ⟨history, hcreated⟩ := h.created
  have hopened : s.closed = false := by rw [hcreated]; rfl
  have htarget : s.replayTarget = some all.length := by rw [hcreated]; rfl
  have hposition : s.position = 0 := by rw [hcreated]; rfl
  have hreaches : s.prefixLength = 0 := by rw [hcreated]; rfl
  have hcaches : s.caches.map (·.take 0) = cachesOf (setup.spanBlocks s.span) (through setup s.span.start []) := by
    rw [hcreated]
    exact caches_create hwithin
  have hprepare : s.prepare inputs = (.ok (through setup s.span.start all),
      { s with history := some (through setup s.span.start all) }) := by
    have hlength := hcausal.length all
    unfold ServerSession.prepare
    rw [htarget]
    dsimp only
    rw [if_neg (not_not.mpr hposition), h.restored]
    dsimp only
    rw [if_neg (not_not.mpr hlength)]
  unfold ServerSession.step
  rw [hopened, htarget, hprepare]
  simp only [Bool.false_eq_true, if_false]
  by_cases hchunk : setup.replayChunkTokens < (through setup s.span.start all).length
  · rw [if_pos hchunk]
    -- the session as it is for the chunks: a new one
    have hfresh : Synced setup []
        { s with history := none, replayTarget := none } := by
      rw [hcreated]
      exact Synced.create hwithin
    have hsome : 1 ≤ setup.replayChunkTokens := Nat.le_max_right _ _
    have hrun := hfresh.replayChunks hwithin (fun chunk hmem => chunk_ne_nil hsome hmem)
      (flatten_chunks hsome (through setup s.span.start all)) (by simpa using hmax) served
    rcases hrun with ⟨s', hrun, hspan, hsynced⟩ | ⟨s', hrun, hspan, hserved⟩
    · have hrun' : ServerSession.replayChunks setup
          (ServerSession.chunks setup.replayChunkTokens (through setup s.span.start all)) served
          { s with history := none, replayTarget := none } = (.ok (through setup s.span.stop all), s') := hrun
      have hspan : s'.span = s.span := hspan
      rw [List.nil_append] at hsynced
      have hheld : s'.position = (through setup s.span.start all).length := by
        rw [hsynced.position, hcausal.length]
      have hhistory : s'.history = some (through setup s.span.start all) := by
        rw [hsynced.history, if_neg hall, hspan]
      left
      refine ⟨s', ?_, hspan, hsynced⟩
      rw [hrun']
      dsimp only
      rw [if_neg (not_not.mpr hheld), ← hhistory]
    · have hrun' : ServerSession.replayChunks setup
          (ServerSession.chunks setup.replayChunkTokens (through setup s.span.start all)) served
          { s with history := none, replayTarget := none } = (.error .request, s') := hrun
      right
      refine ⟨{ s' with history := some (through setup s.span.start all) }, ?_, ⟨hspan, rfl⟩, hserved⟩
      rw [hrun']
  · rw [if_neg hchunk]
    by_cases hserved : served = some 0
    · rw [decide_eq_true hserved, request_fails]
      right
      exact ⟨_, rfl, ⟨rfl, rfl⟩, fun hnone => Option.some_ne_none 0 (hserved.symm.trans hnone)⟩
    · let s₁ : ServerSession α := { s with history := some (through setup s.span.start all) }
      have hroom : ([] : List α).length + all.length ≤ setup.maxLength := by simpa using hmax
      have hrequest := @request_eq _ _ [] s₁ hwithin hposition (Nat.zero_le _) hcaches all hroom
        (through setup s.span.start all).length
      rw [decide_eq_false hserved]
      left
      refine ⟨_, hrequest, rfl, ?_⟩
      have hlength := hcausal.length all
      rw [hlength, List.nil_append, List.length_nil, Nat.zero_add]
      exact synced_answered hall hopened rfl

end Drift.Client
