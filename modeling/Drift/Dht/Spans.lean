import Drift.Dht.ModuleInfos

/-!
# The spans of a list of blocks

`compute_spans` turns what the blocks list, peer by peer, into one span for each peer. It walks over the
blocks in order. The first record of a peer, and every later one in a higher state, begins its span anew,
from the range that the record announces or from its own block; a record in the same state moves the end
up to its block. So one record of each peer decides its span: the first of those in the highest state that
the peer is listed with.

* `recordStep` — what one record does to the span of its peer;
* `lookup_computeSpans` — the span of a peer depends on its own records;
* `spanOf_of_mem`, `Decides.exists_span` — the spans, from the deciding records;
* `spansSound_iff` — every span is a nonempty range of blocks that list its peer, exactly when the blocks
  which the deciding records reach do (`ReachesListed`).
-/

namespace Drift.Dht

open Drift.Lib

/-! ### Definitions -/

/-- `RemoteModuleInfo`. -/
structure RemoteModuleInfo where
  uid : ModuleUid
  servers : Dict String ServerInfo

/-- `RemoteSpanInfo`. The range ends before `stop`. -/
structure RemoteSpanInfo where
  peerId : String
  start : Int
  stop : Int
  serverInfo : ServerInfo

namespace RemoteSpanInfo

def length (span : RemoteSpanInfo) : Int := span.stop - span.start

def state (span : RemoteSpanInfo) : Int := span.serverInfo.state

end RemoteSpanInfo

/-- `ServerState`, by its values. -/
def offline : Int := 0
def joining : Int := 1
def online : Int := 2

/-- What `compute_spans` fixes before its loop. -/
structure SpanContext where
  blockOffset : Nat
  numBlocks : Nat
  minState : Int

/-- `sorted(module_info.servers.items())`. -/
def sortedServers (servers : Dict String ServerInfo) : List (String × ServerInfo) :=
  (Dict.sorted servers.keys).filterMap fun peerId =>
    (servers.lookup peerId).map fun info => (peerId, info)

namespace SpanContext

/-- Where the span of a record begins. -/
def firstBlock (ctx : SpanContext) (blockIdx : Nat) (info : ServerInfo) : Int :=
  match info.startBlock, info.endBlock with
  | some startBlock, some _ => max ((startBlock : Int) - ctx.blockOffset) 0
  | _, _ => blockIdx

/-- Where the span of a record ends, as long as no other record moves its end. -/
def rangeEnd (ctx : SpanContext) (blockIdx : Nat) (info : ServerInfo) : Int :=
  match info.startBlock, info.endBlock with
  | some _, some endBlock => min ((endBlock : Int) - ctx.blockOffset) ctx.numBlocks
  | _, _ => blockIdx + 1

/-- The span that a record begins. -/
def begins (ctx : SpanContext) (blockIdx : Nat) (peerId : String) (info : ServerInfo) : RemoteSpanInfo where
  peerId := peerId
  start := ctx.firstBlock blockIdx info
  stop := ctx.rangeEnd blockIdx info
  serverInfo := info

/-- `spans[peer_id]`. -/
def lookup (spans : List RemoteSpanInfo) (peerId : String) : Option RemoteSpanInfo :=
  spans.find? fun span => span.peerId == peerId

/-- One iteration of the inner loop. The dictionary keeps its insertion order. -/
def addRecord (ctx : SpanContext) (blockIdx : Nat) (spans : List RemoteSpanInfo)
    (record : String × ServerInfo) : List RemoteSpanInfo :=
  let (peerId, info) := record
  if info.state < ctx.minState then spans
  else
    match lookup spans peerId with
    | none => spans ++ [ctx.begins blockIdx peerId info]
    | some span =>
      if span.state < info.state then
        spans.map fun s => if s.peerId == peerId then ctx.begins blockIdx peerId info else s
      else if span.state = info.state then
        spans.map fun s => if s.peerId == peerId then { s with stop := max s.stop (blockIdx + 1) } else s
      else spans

end SpanContext

/-- `parse_uid(module_infos[0].uid)[1] if module_infos else 0`, and the number of blocks. -/
def spanContext (moduleInfos : List RemoteModuleInfo) (minState : Int) : SpanContext where
  blockOffset := (moduleInfos.head?.map fun info => info.uid.blockIndex).getD 0
  numBlocks := moduleInfos.length
  minState := minState

/-- `compute_spans`, with the values of its dictionary in order. -/
def computeSpans (moduleInfos : List RemoteModuleInfo) (minState : Int) : List RemoteSpanInfo :=
  let ctx := spanContext moduleInfos minState
  moduleInfos.zipIdx.foldl (fun spans (info, blockIdx) =>
    (sortedServers info.servers).foldl (ctx.addRecord blockIdx) spans) []

/-! ### One peer -/

namespace SpanContext

variable {ctx : SpanContext} {blockIdx : Nat} {peerId peerId' : String} {info : ServerInfo}
  {spans : List RemoteSpanInfo}

/-- What a record does to the span of its peer. -/
def recordStep (ctx : SpanContext) (blockIdx : Nat) (peerId : String) (span? : Option RemoteSpanInfo)
    (info : ServerInfo) : Option RemoteSpanInfo :=
  if info.state < ctx.minState then span?
  else
    match span? with
    | none => some (ctx.begins blockIdx peerId info)
    | some span =>
      if span.state < info.state then some (ctx.begins blockIdx peerId info)
      else if span.state = info.state then some { span with stop := max span.stop (blockIdx + 1) }
      else some span

/-- The keys of the dictionary stay distinct. -/
theorem addRecord_nodup (h : (spans.map RemoteSpanInfo.peerId).Nodup) (record : String × ServerInfo) :
    ((ctx.addRecord blockIdx spans record).map RemoteSpanInfo.peerId).Nodup := by
  obtain ⟨peerId, info⟩ := record
  have hmap : ∀ f : RemoteSpanInfo → RemoteSpanInfo, (∀ s, s.peerId = peerId → (f s).peerId = peerId) →
      (spans.map fun s => if s.peerId == peerId then f s else s).map RemoteSpanInfo.peerId =
        spans.map RemoteSpanInfo.peerId := by
    intro f hf
    rw [List.map_map]
    refine List.map_congr_left fun s _ => ?_
    show (if s.peerId == peerId then f s else s).peerId = s.peerId
    split
    next hs => rw [hf s (beq_iff_eq.mp hs), beq_iff_eq.mp hs]
    next => rfl
  unfold addRecord
  dsimp only
  split
  · exact h
  split
  · next hnone =>
    rw [List.map_append, List.nodup_append]
    refine ⟨h, List.nodup_singleton _, ?_⟩
    rintro _ hmem _ hnew rfl
    obtain ⟨s, hs, heq⟩ := List.mem_map.mp hmem
    have hne := List.find?_eq_none.mp hnone s hs
    rw [List.map_singleton, List.mem_singleton] at hnew
    exact hne (beq_iff_eq.mpr (heq.trans hnew))
  · split
    · rw [hmap (fun _ => ctx.begins blockIdx peerId info) fun _ _ => rfl]
      exact h
    · split
      · rw [hmap (fun s => { s with stop := max s.stop (blockIdx + 1) }) fun _ hs => hs]
        exact h
      · exact h

/-- Updating the value of a key. -/
theorem lookup_map (spans : List RemoteSpanInfo) (peerId peerId' : String)
    (f : RemoteSpanInfo → RemoteSpanInfo) (hf : ∀ s, s.peerId = peerId → (f s).peerId = peerId) :
    lookup (spans.map fun s => if s.peerId == peerId then f s else s) peerId' =
      if peerId' = peerId then (lookup spans peerId').map f else lookup spans peerId' := by
  unfold lookup
  induction spans with
  | nil => simp
  | cons s spans ih =>
    rw [List.map_cons, List.find?_cons, List.find?_cons, ih]
    by_cases hs : s.peerId = peerId
    · rw [if_pos (beq_iff_eq.mpr hs), hf s hs, hs]
      by_cases hpeer : peerId' = peerId
      · subst hpeer
        rw [beq_self_eq_true, if_pos rfl, if_pos rfl]
        rfl
      · rw [beq_eq_false_iff_ne.mpr (Ne.symm hpeer), if_neg hpeer]
    · rw [if_neg (mt beq_iff_eq.mp hs)]
      by_cases hsame : s.peerId = peerId'
      · have hne : ¬ peerId' = peerId := fun h => hs (hsame.trans h)
        rw [if_neg hne, if_neg hne]
      · rw [beq_eq_false_iff_ne.mpr hsame]

/-- **A record is about its peer.** -/
theorem lookup_addRecord (record : String × ServerInfo) :
    lookup (ctx.addRecord blockIdx spans record) peerId' =
      if peerId' = record.1 then ctx.recordStep blockIdx peerId' (lookup spans peerId') record.2
      else lookup spans peerId' := by
  obtain ⟨peerId, info⟩ := record
  unfold addRecord recordStep
  dsimp only
  split
  · rw [ite_self]
  cases hlookup : lookup spans peerId with
  | none =>
    unfold lookup at hlookup ⊢
    rw [List.find?_append]
    by_cases hpeer : peerId' = peerId
    · subst hpeer
      rw [hlookup, if_pos rfl]
      simp [begins]
    · have hne : ¬ peerId = peerId' := fun h => hpeer h.symm
      simp [begins, hpeer, hne]
  | some span =>
    dsimp only
    by_cases hhigher : span.state < info.state
    · rw [if_pos hhigher, lookup_map spans peerId peerId' (fun _ => ctx.begins blockIdx peerId info) fun _ _ => rfl]
      by_cases hpeer : peerId' = peerId
      · subst hpeer
        rw [if_pos rfl, if_pos rfl, hlookup]
        simp [hhigher]
      · rw [if_neg hpeer, if_neg hpeer]
    · rw [if_neg hhigher]
      by_cases hsame : span.state = info.state
      · rw [if_pos hsame, lookup_map spans peerId peerId' (fun s => { s with stop := max s.stop (blockIdx + 1) }) fun _ hs => hs]
        by_cases hpeer : peerId' = peerId
        · subst hpeer
          rw [if_pos rfl, if_pos rfl, hlookup]
          simp [hsame]
        · rw [if_neg hpeer, if_neg hpeer]
      · rw [if_neg hsame]
        by_cases hpeer : peerId' = peerId
        · subst hpeer
          rw [if_pos rfl, hlookup]
          simp [hhigher, hsame]
        · rw [if_neg hpeer]

/-- Records of other peers do not matter. -/
theorem lookup_addRecords_of_not_mem {records : List (String × ServerInfo)}
    (h : ∀ info, (peerId, info) ∉ records) :
    lookup (records.foldl (ctx.addRecord blockIdx) spans) peerId = lookup spans peerId := by
  induction records generalizing spans with
  | nil => rfl
  | cons record records ih =>
    have hne : ¬ peerId = record.1 := by
      rintro rfl
      exact h record.2 List.mem_cons_self
    rw [List.foldl_cons, ih fun info hmem => h info (List.mem_cons_of_mem _ hmem), lookup_addRecord,
      if_neg hne]

/-- Of the records under a block key one is about the peer. -/
theorem lookup_addRecords_of_mem {records : List (String × ServerInfo)}
    (hnodup : (records.map Prod.fst).Nodup) (h : (peerId, info) ∈ records) :
    lookup (records.foldl (ctx.addRecord blockIdx) spans) peerId =
      ctx.recordStep blockIdx peerId (lookup spans peerId) info := by
  induction records generalizing spans with
  | nil => cases h
  | cons record records ih =>
    rw [List.map_cons, List.nodup_cons] at hnodup
    rw [List.foldl_cons]
    rcases List.mem_cons.mp h with rfl | hmem
    · have hothers : ∀ info', (peerId, info') ∉ records := fun info' hmem =>
        hnodup.1 (List.mem_map.mpr ⟨_, hmem, rfl⟩)
      rw [lookup_addRecords_of_not_mem hothers, lookup_addRecord, if_pos rfl]
    · have hne : ¬ peerId = record.1 := by
        intro heq
        exact hnodup.1 (List.mem_map.mpr ⟨_, hmem, heq⟩)
      rw [ih hnodup.2 hmem, lookup_addRecord, if_neg hne]

end SpanContext

theorem mem_sortedServers {servers : Dict String ServerInfo} {peerId : String} {info : ServerInfo} :
    (peerId, info) ∈ sortedServers servers ↔ servers.lookup peerId = some info := by
  unfold sortedServers
  rw [List.mem_filterMap]
  constructor
  · rintro ⟨key, -, hkey⟩
    obtain ⟨info', hlookup, heq⟩ := Option.map_eq_some_iff.mp hkey
    obtain ⟨rfl, rfl⟩ := Prod.mk.inj heq
    exact hlookup
  · intro h
    refine ⟨peerId, ?_, by rw [h, Option.map_some]⟩
    have hmem : peerId ∈ servers := AList.lookup_isSome.mp (by rw [h]; rfl)
    exact Dict.mem_sorted.mpr (AList.mem_keys.mp hmem)

theorem sortedServers_nodup (servers : Dict String ServerInfo) :
    ((sortedServers servers).map Prod.fst).Nodup := by
  have hkeys : (sortedServers servers).map Prod.fst = Dict.sorted servers.keys := by
    unfold sortedServers
    rw [List.map_filterMap]
    have hall : ∀ key ∈ Dict.sorted servers.keys,
        ((servers.lookup key).map fun info => (key, info)).map Prod.fst = some key := by
      intro key hkey
      have hmem : key ∈ servers := AList.mem_keys.mpr (Dict.mem_sorted.mp hkey)
      obtain ⟨info, hinfo⟩ := Option.isSome_iff_exists.mp (AList.lookup_isSome.mpr hmem)
      rw [hinfo]
      rfl
    rw [List.filterMap_congr hall, List.filterMap_some]
  rw [hkeys]
  exact Dict.nodup_sorted servers.nodupKeys

/-- What a block does to the span of a peer. -/
theorem SpanContext.lookup_addBlock (ctx : SpanContext) (blockIdx : Nat) (spans : List RemoteSpanInfo)
    (servers : Dict String ServerInfo) (peerId : String) :
    lookup ((sortedServers servers).foldl (ctx.addRecord blockIdx) spans) peerId =
      (servers.lookup peerId).elim (lookup spans peerId)
        (ctx.recordStep blockIdx peerId (lookup spans peerId)) := by
  cases hlookup : servers.lookup peerId with
  | none =>
    refine lookup_addRecords_of_not_mem fun info hmem => ?_
    exact absurd (hlookup.symm.trans (mem_sortedServers.mp hmem)) (Option.some_ne_none info).symm
  | some info => exact lookup_addRecords_of_mem (sortedServers_nodup servers) (mem_sortedServers.mpr hlookup)

/-! ### The deciding record -/

/-- The record of a peer under a block, if its state counts. -/
def listed (moduleInfos : List RemoteModuleInfo) (minState : Int) (peerId : String) (block : Nat) :
    Option ServerInfo :=
  (moduleInfos[block]?.bind fun info => info.servers.lookup peerId).filter
    fun info => decide (minState ≤ info.state)

/-- The record that decides the span of a peer: the first of those in its highest state. -/
structure Decides (moduleInfos : List RemoteModuleInfo) (minState : Int) (peerId : String) (block : Nat)
    (info : ServerInfo) : Prop where
  lists : listed moduleInfos minState peerId block = some info
  first : ∀ i < block, ∀ r, listed moduleInfos minState peerId i = some r → r.state < info.state
  highest : ∀ i r, listed moduleInfos minState peerId i = some r → r.state ≤ info.state

/-- The deciding record, or a later one in its state, takes the span up to `position`. -/
def Reaches (ctx : SpanContext) (moduleInfos : List RemoteModuleInfo) (peerId : String) (block : Nat)
    (info : ServerInfo) (position : Int) : Prop :=
  position < ctx.rangeEnd block info ∨
    ∃ j r, block < j ∧ listed moduleInfos ctx.minState peerId j = some r ∧ r.state = info.state ∧
      position ≤ j

/-- What the span of a peer is, from its records. -/
structure SpanOf (ctx : SpanContext) (moduleInfos : List RemoteModuleInfo) (peerId : String)
    (span : RemoteSpanInfo) (block : Nat) : Prop where
  decides : Decides moduleInfos ctx.minState peerId block span.serverInfo
  peerId_eq : span.peerId = peerId
  start_eq : span.start = ctx.firstBlock block span.serverInfo
  lt_stop : ∀ position, position < span.stop ↔
    Reaches ctx moduleInfos peerId block span.serverInfo position

section Records

variable {ctx : SpanContext} {moduleInfos : List RemoteModuleInfo} {moduleInfo : RemoteModuleInfo}
  {minState : Int} {peerId : String} {block : Nat} {info : ServerInfo}

theorem listed_lt (h : listed moduleInfos minState peerId block = some info) :
    block < moduleInfos.length := by
  by_contra hge
  unfold listed at h
  rw [List.getElem?_eq_none (not_lt.mp hge)] at h
  cases h

theorem minState_le (h : listed moduleInfos minState peerId block = some info) :
    minState ≤ info.state :=
  of_decide_eq_true (Option.filter_eq_some_iff.mp h).2

/-- One more block adds its own record only. -/
theorem listed_append (block : Nat) :
    listed (moduleInfos ++ [moduleInfo]) minState peerId block =
      if block = moduleInfos.length then
        (moduleInfo.servers.lookup peerId).filter fun info => decide (minState ≤ info.state)
      else listed moduleInfos minState peerId block := by
  unfold listed
  rcases Nat.lt_trichotomy block moduleInfos.length with hlt | rfl | hgt
  · rw [List.getElem?_append_left hlt, if_neg hlt.ne]
  · rw [List.getElem?_append_right le_rfl, Nat.sub_self, if_pos rfl]
    rfl
  · have hlength : (moduleInfos ++ [moduleInfo]).length ≤ block := by
      rw [List.length_append, List.length_singleton]
      exact hgt
    rw [List.getElem?_eq_none hlength, List.getElem?_eq_none hgt.le, if_neg hgt.ne']

/-- The span of a peer over the blocks so far. -/
def peerSpan (ctx : SpanContext) (moduleInfos : List RemoteModuleInfo) (peerId : String) :
    Option RemoteSpanInfo :=
  moduleInfos.zipIdx.foldl (fun span? (info, blockIdx) =>
    (info.servers.lookup peerId).elim span? (ctx.recordStep blockIdx peerId span?)) none

theorem peerSpan_append :
    peerSpan ctx (moduleInfos ++ [moduleInfo]) peerId =
      (moduleInfo.servers.lookup peerId).elim (peerSpan ctx moduleInfos peerId)
        (ctx.recordStep moduleInfos.length peerId (peerSpan ctx moduleInfos peerId)) := by
  unfold peerSpan
  rw [List.zipIdx_append, List.foldl_append]
  simp only [List.zipIdx_cons, List.zipIdx_nil, List.foldl_cons, List.foldl_nil, Nat.zero_add]

/-- What the records so far say about the span so far. -/
def Spans (ctx : SpanContext) (moduleInfos : List RemoteModuleInfo) (peerId : String) :
    Option RemoteSpanInfo → Prop
  | none => ∀ i, listed moduleInfos ctx.minState peerId i = none
  | some span => ∃ block, SpanOf ctx moduleInfos peerId span block

/-- A block without a record that counts changes nothing. -/
theorem Spans.skip {span? : Option RemoteSpanInfo} (h : Spans ctx moduleInfos peerId span?)
    (hskip : (moduleInfo.servers.lookup peerId).filter
      (fun info => decide (ctx.minState ≤ info.state)) = none) :
    Spans ctx (moduleInfos ++ [moduleInfo]) peerId span? := by
  have hsame : ∀ i, listed (moduleInfos ++ [moduleInfo]) ctx.minState peerId i =
      listed moduleInfos ctx.minState peerId i := by
    intro i
    rw [listed_append, hskip]
    split
    next hi =>
      subst hi
      unfold listed
      rw [List.getElem?_eq_none le_rfl]
      rfl
    next => rfl
  cases span? with
  | none => exact fun i => (hsame i).trans (h i)
  | some span =>
    obtain ⟨block, hspan⟩ := h
    refine ⟨block, ⟨?_, ?_, ?_⟩, hspan.peerId_eq, hspan.start_eq, ?_⟩
    · rw [hsame]
      exact hspan.decides.lists
    · intro i hi r hr
      rw [hsame] at hr
      exact hspan.decides.first i hi r hr
    · intro i r hr
      rw [hsame] at hr
      exact hspan.decides.highest i r hr
    · intro position
      rw [hspan.lt_stop]
      unfold Reaches
      simp only [hsame]

/-- A record in a higher state than all before decides the span. -/
theorem Spans.begins (hinfo : moduleInfo.servers.lookup peerId = some info)
    (hmin : ctx.minState ≤ info.state)
    (hhigher : ∀ i r, listed moduleInfos ctx.minState peerId i = some r → r.state < info.state) :
    Spans ctx (moduleInfos ++ [moduleInfo]) peerId (some (ctx.begins moduleInfos.length peerId info)) := by
  have hlast : listed (moduleInfos ++ [moduleInfo]) ctx.minState peerId moduleInfos.length =
      some info := by
    rw [listed_append, if_pos rfl, hinfo]
    exact Option.filter_eq_some_iff.mpr ⟨rfl, decide_eq_true hmin⟩
  have hbefore : ∀ i r, i ≠ moduleInfos.length →
      listed (moduleInfos ++ [moduleInfo]) ctx.minState peerId i = some r → r.state < info.state := by
    intro i r hi hr
    rw [listed_append, if_neg hi] at hr
    exact hhigher i r hr
  refine ⟨moduleInfos.length, ⟨hlast, fun i hi r hr => hbefore i r hi.ne hr, ?_⟩, rfl, rfl, ?_⟩
  · intro i r hr
    by_cases hi : i = moduleInfos.length
    · subst hi
      rw [Option.some.inj (hlast.symm.trans hr)]
      exact le_rfl
    · exact (hbefore i r hi hr).le
  · intro position
    refine ⟨Or.inl, ?_⟩
    rintro (h | ⟨j, r, hj, hr, -⟩)
    · exact h
    · -- there is no later block
      have hlt := listed_lt hr
      rw [List.length_append, List.length_singleton] at hlt
      omega

/-- **One block.** -/
theorem Spans.append (h : Spans ctx moduleInfos peerId (peerSpan ctx moduleInfos peerId))
    (moduleInfo : RemoteModuleInfo) :
    Spans ctx (moduleInfos ++ [moduleInfo]) peerId (peerSpan ctx (moduleInfos ++ [moduleInfo]) peerId) := by
  rw [peerSpan_append]
  cases hinfo : moduleInfo.servers.lookup peerId with
  | none => exact h.skip (by rw [hinfo]; rfl)
  | some info =>
    rw [Option.elim_some]
    unfold SpanContext.recordStep
    by_cases hmin : info.state < ctx.minState
    · rw [if_pos hmin]
      refine h.skip ?_
      rw [hinfo]
      exact Option.filter_eq_none_iff.mpr fun r hr => by
        obtain rfl := Option.some.inj hr
        exact fun hle => absurd (of_decide_eq_true hle) (not_le.mpr hmin)
    rw [if_neg hmin]
    rw [not_lt] at hmin
    cases hspan : peerSpan ctx moduleInfos peerId with
    | none =>
      rw [hspan] at h
      refine Spans.begins hinfo hmin fun i r hr => ?_
      exact absurd ((h i).symm.trans hr) (Option.some_ne_none r).symm
    | some span =>
      rw [hspan] at h
      obtain ⟨block, hspan⟩ := h
      dsimp only
      by_cases hhigher : span.state < info.state
      · rw [if_pos hhigher]
        exact Spans.begins hinfo hmin fun i r hr => (hspan.decides.highest i r hr).trans_lt hhigher
      rw [if_neg hhigher]
      have hlast : listed (moduleInfos ++ [moduleInfo]) ctx.minState peerId moduleInfos.length =
          some info := by
        rw [listed_append, if_pos rfl, hinfo]
        exact Option.filter_eq_some_iff.mpr ⟨rfl, decide_eq_true hmin⟩
      have hold : ∀ i, i ≠ moduleInfos.length →
          listed (moduleInfos ++ [moduleInfo]) ctx.minState peerId i =
            listed moduleInfos ctx.minState peerId i := fun i hi => by rw [listed_append, if_neg hi]
      have hblock := listed_lt hspan.decides.lists
      have hdecides : Decides (moduleInfos ++ [moduleInfo]) ctx.minState peerId block span.serverInfo := by
        refine ⟨?_, fun i hi r hr => ?_, fun i r hr => ?_⟩
        · rw [hold block hblock.ne]
          exact hspan.decides.lists
        · rw [hold i (hi.trans hblock).ne] at hr
          exact hspan.decides.first i hi r hr
        · by_cases hi : i = moduleInfos.length
          · subst hi
            obtain rfl := Option.some.inj (hlast.symm.trans hr)
            exact not_lt.mp hhigher
          · rw [hold i hi] at hr
            exact hspan.decides.highest i r hr
      have hreaches : ∀ position, Reaches ctx (moduleInfos ++ [moduleInfo]) peerId block span.serverInfo
          position ↔ position < span.stop ∨
            info.state = span.state ∧ position ≤ moduleInfos.length := by
        intro position
        rw [hspan.lt_stop]
        constructor
        · rintro (hrange | ⟨j, r, hj, hr, hstate, hle⟩)
          · exact Or.inl (Or.inl hrange)
          · by_cases hlen : j = moduleInfos.length
            · subst hlen
              obtain rfl := Option.some.inj (hlast.symm.trans hr)
              exact Or.inr ⟨hstate, hle⟩
            · rw [hold j hlen] at hr
              exact Or.inl (Or.inr ⟨j, r, hj, hr, hstate, hle⟩)
        · rintro ((hrange | ⟨j, r, hj, hr, hstate, hle⟩) | ⟨hstate, hle⟩)
          · exact Or.inl hrange
          · refine Or.inr ⟨j, r, hj, ?_, hstate, hle⟩
            rw [hold j (listed_lt hr).ne]
            exact hr
          · exact Or.inr ⟨moduleInfos.length, info, hblock, hlast, hstate, hle⟩
      by_cases hsame : span.state = info.state
      · rw [if_pos hsame]
        refine ⟨block, hdecides, hspan.peerId_eq, hspan.start_eq, fun position => ?_⟩
        show position < max span.stop (moduleInfos.length + 1) ↔ _
        rw [hreaches, lt_max_iff, Int.lt_add_one_iff]
        exact or_congr_right (iff_and_self.mpr fun _ => hsame.symm)
      · rw [if_neg hsame]
        refine ⟨block, hdecides, hspan.peerId_eq, hspan.start_eq, fun position => ?_⟩
        rw [hreaches]
        exact (or_iff_left fun h => hsame h.1.symm).symm

/-- **The span of a peer**, from its records. -/
theorem spans_peerSpan (ctx : SpanContext) (moduleInfos : List RemoteModuleInfo) (peerId : String) :
    Spans ctx moduleInfos peerId (peerSpan ctx moduleInfos peerId) := by
  induction moduleInfos using List.reverseRecOn with
  | nil => exact fun i => rfl
  | append_singleton moduleInfos moduleInfo ih => exact ih.append moduleInfo

/-- **The span of a peer depends on its own records.** -/
theorem lookup_computeSpans (moduleInfos : List RemoteModuleInfo) (minState : Int) (peerId : String) :
    SpanContext.lookup (computeSpans moduleInfos minState) peerId =
      peerSpan (spanContext moduleInfos minState) moduleInfos peerId := by
  unfold computeSpans peerSpan
  generalize spanContext moduleInfos minState = ctx
  have hfold : ∀ (blocks : List (RemoteModuleInfo × Nat)) (spans : List RemoteSpanInfo),
      SpanContext.lookup (blocks.foldl (fun spans (info, blockIdx) =>
          (sortedServers info.servers).foldl (ctx.addRecord blockIdx) spans) spans) peerId =
        blocks.foldl (fun span? (info, blockIdx) => (info.servers.lookup peerId).elim span?
          (ctx.recordStep blockIdx peerId span?)) (SpanContext.lookup spans peerId) := by
    intro blocks
    induction blocks with
    | nil => exact fun spans => rfl
    | cons block blocks ih =>
      intro spans
      rw [List.foldl_cons, List.foldl_cons, ih, SpanContext.lookup_addBlock]
  exact hfold moduleInfos.zipIdx []

theorem computeSpans_nodup (moduleInfos : List RemoteModuleInfo) (minState : Int) :
    ((computeSpans moduleInfos minState).map RemoteSpanInfo.peerId).Nodup := by
  unfold computeSpans
  generalize spanContext moduleInfos minState = ctx
  have hrecords : ∀ (blockIdx : Nat) (records : List (String × ServerInfo)) (spans : List RemoteSpanInfo),
      (spans.map RemoteSpanInfo.peerId).Nodup →
        ((records.foldl (ctx.addRecord blockIdx) spans).map RemoteSpanInfo.peerId).Nodup := by
    intro blockIdx records
    induction records with
    | nil => exact fun spans h => h
    | cons record records ih => exact fun spans h => ih _ (SpanContext.addRecord_nodup h record)
  have hblocks : ∀ (blocks : List (RemoteModuleInfo × Nat)) (spans : List RemoteSpanInfo),
      (spans.map RemoteSpanInfo.peerId).Nodup →
        ((blocks.foldl (fun spans (info, blockIdx) =>
          (sortedServers info.servers).foldl (ctx.addRecord blockIdx) spans) spans).map
            RemoteSpanInfo.peerId).Nodup := by
    intro blocks
    induction blocks with
    | nil => exact fun spans h => h
    | cons block blocks ih => exact fun spans h => ih _ (hrecords _ _ _ h)
  exact hblocks _ [] List.nodup_nil

/-- Under distinct keys a member is what its key looks up. -/
theorem lookup_eq_some_iff {spans : List RemoteSpanInfo} {span : RemoteSpanInfo}
    (hnodup : (spans.map RemoteSpanInfo.peerId).Nodup) :
    SpanContext.lookup spans span.peerId = some span ↔ span ∈ spans := by
  unfold SpanContext.lookup
  refine ⟨List.mem_of_find?_eq_some, fun hmem => ?_⟩
  induction spans with
  | nil => cases hmem
  | cons first spans ih =>
    rw [List.map_cons, List.nodup_cons] at hnodup
    rw [List.find?_cons]
    rcases List.mem_cons.mp hmem with rfl | hmem
    · rw [beq_self_eq_true]
    · have hne : first.peerId ≠ span.peerId := fun heq =>
        hnodup.1 (heq ▸ List.mem_map_of_mem hmem)
      rw [beq_eq_false_iff_ne.mpr hne]
      exact ih hnodup.2 hmem

/-- **Every span comes from a deciding record.** -/
theorem spanOf_of_mem {span : RemoteSpanInfo} (h : span ∈ computeSpans moduleInfos minState) :
    ∃ block, SpanOf (spanContext moduleInfos minState) moduleInfos span.peerId span block := by
  have hlookup := (lookup_eq_some_iff (computeSpans_nodup moduleInfos minState)).mpr h
  rw [lookup_computeSpans] at hlookup
  have hspans := spans_peerSpan (spanContext moduleInfos minState) moduleInfos span.peerId
  rw [hlookup] at hspans
  exact hspans

theorem Decides.unique {block' : Nat} {info' : ServerInfo}
    (h : Decides moduleInfos minState peerId block info)
    (h' : Decides moduleInfos minState peerId block' info') : block = block' ∧ info = info' := by
  have hle := h.highest block' info' h'.lists
  have hle' := h'.highest block info h.lists
  have hblock : block = block' := by
    rcases Nat.lt_trichotomy block block' with hlt | heq | hlt
    · exact absurd (h'.first block hlt info h.lists) (not_lt.mpr hle)
    · exact heq
    · exact absurd (h.first block' hlt info' h'.lists) (not_lt.mpr hle')
  subst hblock
  exact ⟨rfl, Option.some.inj (h.lists.symm.trans h'.lists)⟩

/-- **Every deciding record has its span.** -/
theorem Decides.exists_span (h : Decides moduleInfos minState peerId block info) :
    ∃ span ∈ computeSpans moduleInfos minState, span.serverInfo = info ∧
      SpanOf (spanContext moduleInfos minState) moduleInfos peerId span block := by
  have hspans := spans_peerSpan (spanContext moduleInfos minState) moduleInfos peerId
  cases hspan : peerSpan (spanContext moduleInfos minState) moduleInfos peerId with
  | none =>
    rw [hspan] at hspans
    exact absurd ((hspans block).symm.trans h.lists) (Option.some_ne_none info).symm
  | some span =>
    rw [hspan] at hspans
    obtain ⟨block', hof⟩ := hspans
    obtain ⟨rfl, rfl⟩ := h.unique hof.decides
    refine ⟨span, ?_, rfl, hof⟩
    rw [← lookup_eq_some_iff (computeSpans_nodup moduleInfos minState), lookup_computeSpans, hof.peerId_eq]
    exact hspan

/-! ### Soundness -/

/-- Every span is a nonempty range of blocks, all of which list its peer in a state that counts. -/
def SpansSound (moduleInfos : List RemoteModuleInfo) (minState : Int) : Prop :=
  ∀ span ∈ computeSpans moduleInfos minState,
    0 ≤ span.start ∧ span.start < span.stop ∧ span.stop ≤ moduleInfos.length ∧
      ∀ i : Nat, span.start ≤ i → i < span.stop →
        (listed moduleInfos minState span.peerId i).isSome = true

/-- What a deciding record reaches from the beginning of its range is at least one block, and lists the
peer in a state that counts. -/
def ReachesListed (moduleInfos : List RemoteModuleInfo) (minState : Int) : Prop :=
  ∀ peerId block info, Decides moduleInfos minState peerId block info →
    let ctx := spanContext moduleInfos minState
    Reaches ctx moduleInfos peerId block info (ctx.firstBlock block info) ∧
      ∀ i : Nat, ctx.firstBlock block info ≤ i → Reaches ctx moduleInfos peerId block info i →
        (listed moduleInfos minState peerId i).isSome = true

theorem firstBlock_nonneg (ctx : SpanContext) (block : Nat) (info : ServerInfo) :
    0 ≤ ctx.firstBlock block info := by
  unfold SpanContext.firstBlock
  split
  · exact le_max_right _ _
  · exact Int.natCast_nonneg block

/-- No span goes past the blocks. -/
theorem SpanOf.stop_le {span : RemoteSpanInfo}
    (h : SpanOf (spanContext moduleInfos minState) moduleInfos peerId span block) :
    span.stop ≤ moduleInfos.length := by
  by_contra hgt
  rw [not_le, h.lt_stop] at hgt
  rcases hgt with hrange | ⟨j, r, -, hr, -, hle⟩
  · have hblock := listed_lt h.decides.lists
    unfold SpanContext.rangeEnd at hrange
    split at hrange
    · have hmin : (moduleInfos.length : Int) < (spanContext moduleInfos minState).numBlocks :=
        hrange.trans_le (min_le_right _ _)
      exact absurd hmin (lt_irrefl _)
    · omega
  · have hlt := listed_lt hr
    omega

/-- **When the spans are sound**, for every list of module infos and every state. -/
theorem spansSound_iff (moduleInfos : List RemoteModuleInfo) (minState : Int) :
    SpansSound moduleInfos minState ↔ ReachesListed moduleInfos minState := by
  constructor
  · intro h peerId block info hdecides
    obtain ⟨span, hmem, rfl, hof⟩ := hdecides.exists_span
    obtain ⟨-, hne, -, hlisted⟩ := h span hmem
    rw [hof.peerId_eq] at hlisted
    dsimp only
    rw [← hof.start_eq, ← hof.lt_stop]
    refine ⟨hne, fun i hfirst hreaches => hlisted i hfirst ?_⟩
    rw [hof.lt_stop]
    exact hreaches
  · intro h span hmem
    obtain ⟨block, hof⟩ := spanOf_of_mem hmem
    obtain ⟨hne, hlisted⟩ := h span.peerId block span.serverInfo hof.decides
    rw [← hof.start_eq] at hne hlisted
    refine ⟨?_, (hof.lt_stop _).mpr hne, hof.stop_le, fun i hfirst hlt => ?_⟩
    · rw [hof.start_eq]
      exact firstBlock_nonneg _ _ _
    · exact hlisted i hfirst ((hof.lt_stop _).mp hlt)

end Records

end Drift.Dht
