import Drift.Dht.Spans
import Drift.Lib.Machine

/-!
# The routing table of a client

`RemoteSequenceInfo` keeps what the blocks list and, derived from it, the spans that routes are built on.
An update replaces what the blocks list; a request that failed takes its peer out of every block. Both
derive the spans again. `remove_peer_` also tells its caller whether to look for servers at once. It asks
whether some block lists nobody any more, in any state; what a route needs is a span for every block, and
those are made of online records, by the ranges that they announce.

* `spans_sound_iff` — when every span, and so every hop of a route, is a range of blocks that list the
  peer;
* `RemoteSequenceInfo.follows_next` — after an update for the blocks of the table, and after a removal, the
  spans are those of what the blocks list;
* `RemoteSequenceInfo.noticed_iff` — when `remove_peer_` tells that a block is without a span
  (`LossSeen`);
* `routing_table_follows` — the three for whole runs, with removed peers that stay away.
-/

namespace Drift.Client

open Drift.Lib Drift.Dht

/-! ### Definitions -/

/-- `RemoteSequenceInfo`. -/
structure RemoteSequenceInfo where
  blockUids : List ModuleUid
  blockInfos : List RemoteModuleInfo
  spansByPriority : List RemoteSpanInfo
  spansContainingBlock : List (List RemoteSpanInfo)

/-- The assertions of `update_`. -/
inductive UpdateError
  | length
  | uid (expected found : ModuleUid)
  deriving DecidableEq, Repr

/-- `spans_by_priority.sort(key=lambda span: span.length, reverse=True)`, which keeps the order of spans
of one length. -/
def byLength (spans : List RemoteSpanInfo) : List RemoteSpanInfo :=
  spans.insertionSort fun span span' => span'.length ≤ span.length

/-- The spans that contain a block. -/
def containing (spans : List RemoteSpanInfo) (block : Nat) : List RemoteSpanInfo :=
  spans.filter fun span => decide (span.start ≤ block ∧ (block : Int) < span.stop)

/-- `_sort_spans`. Every span lies within the blocks, so no index of the loop is out of range. -/
def sortSpans (blockInfos : List RemoteModuleInfo) : List RemoteSpanInfo × List (List RemoteSpanInfo) :=
  let spansByPriority := byLength (computeSpans blockInfos online)
  (spansByPriority, (List.range blockInfos.length).map (containing spansByPriority))

/-- The loop of `update_`: the servers of the blocks before the first uid that does not match are
replaced. -/
def updateServers : List ModuleUid → List RemoteModuleInfo → List RemoteModuleInfo →
    Except UpdateError Unit × List RemoteModuleInfo
  | uid :: uids, blockInfo :: blockInfos, info :: infos =>
    if uid = info.uid then
      let (result, rest) := updateServers uids blockInfos infos
      (result, { blockInfo with servers := info.servers } :: rest)
    else (.error (.uid uid info.uid), blockInfo :: blockInfos)
  | _, blockInfos, _ => (.ok (), blockInfos)

namespace RemoteSequenceInfo

/-- `make_empty`. -/
def makeEmpty (blockUids : List ModuleUid) : RemoteSequenceInfo where
  blockUids := blockUids
  blockInfos := blockUids.map fun uid => ⟨uid, ∅⟩
  spansByPriority := []
  spansContainingBlock := blockUids.map fun _ => []

/-- The table with the spans of what its blocks list. -/
def derive (s : RemoteSequenceInfo) (blockInfos : List RemoteModuleInfo) : RemoteSequenceInfo where
  blockUids := s.blockUids
  blockInfos := blockInfos
  spansByPriority := (sortSpans blockInfos).1
  spansContainingBlock := (sortSpans blockInfos).2

/-- `update_`. -/
def update (s : RemoteSequenceInfo) (newBlockInfos : List RemoteModuleInfo) :
    Except UpdateError Unit × RemoteSequenceInfo :=
  if newBlockInfos.length ≠ s.blockUids.length then (.error .length, s)
  else
    match updateServers s.blockUids s.blockInfos newBlockInfos with
    | (.error e, blockInfos) => (.error e, { s with blockInfos })
    | (.ok (), blockInfos) => (.ok (), s.derive blockInfos)

/-- `block_info.servers.pop(peer_id, None)` for every block. -/
def without (peerId : String) (blockInfos : List RemoteModuleInfo) : List RemoteModuleInfo :=
  blockInfos.map fun info => { info with servers := info.servers.erase peerId }

/-- `remove_peer_`. -/
def removePeer (s : RemoteSequenceInfo) (peerId : String) : Bool × RemoteSequenceInfo :=
  let blockInfos := without peerId s.blockInfos
  (blockInfos.any fun info => info.servers.entries.isEmpty, s.derive blockInfos)

end RemoteSequenceInfo

/-- The operations on a table. -/
inductive TableOp
  | update (newBlockInfos : List RemoteModuleInfo)
  | removePeer (peerId : String)

/-- A table under its operations. One that raises is a step too. -/
def tableMachine : Machine RemoteSequenceInfo TableOp where
  next s
    | .update newBlockInfos => some (s.update newBlockInfos).2
    | .removePeer peerId => some (s.removePeer peerId).2

/-- The routes of `_make_sequence_with_max_throughput` from `current` to `last`: each hop takes one of the
spans that contain the block it begins at, up to the end of that span. -/
inductive Route (spansContainingBlock : List (List RemoteSpanInfo)) (last : Nat) :
    Nat → List RemoteSpanInfo → Prop
  | done {current : Nat} (h : last ≤ current) : Route spansContainingBlock last current []
  | hop {current : Nat} {candidates : List RemoteSpanInfo} {chosen : RemoteSpanInfo}
      {rest : List RemoteSpanInfo} (h : current < last)
      (hcandidates : spansContainingBlock[current]? = some candidates) (hchosen : chosen ∈ candidates)
      (hrest : Route spansContainingBlock last chosen.stop.toNat rest) :
      Route spansContainingBlock last current ({ chosen with start := current } :: rest)

/-! ### The spans of a table -/

theorem mem_byLength {spans : List RemoteSpanInfo} {span : RemoteSpanInfo} :
    span ∈ byLength spans ↔ span ∈ spans :=
  List.mem_insertionSort _

theorem mem_containing {spans : List RemoteSpanInfo} {block : Nat} {span : RemoteSpanInfo} :
    span ∈ containing spans block ↔ span ∈ spans ∧ span.start ≤ block ∧ (block : Int) < span.stop := by
  unfold containing
  rw [List.mem_filter, decide_eq_true_iff]

/-- What a route may take at a block. -/
theorem sortSpans_containing {blockInfos : List RemoteModuleInfo} {block : Nat}
    {candidates : List RemoteSpanInfo} (h : (sortSpans blockInfos).2[block]? = some candidates) :
    block < blockInfos.length ∧ candidates = containing (sortSpans blockInfos).1 block := by
  obtain ⟨i, hi, rfl⟩ := (List.getElem?_map .. ▸ Option.map_eq_some_iff).mp h
  obtain ⟨hlt, rfl⟩ := List.getElem?_eq_some_iff.mp hi
  rw [List.getElem_range]
  exact ⟨by simpa using hlt, rfl⟩

/-- **When spans and routes are sound.** Every span is a nonempty range of blocks that list its peer in a
state that counts, exactly when what the deciding records reach is; and then, for online records, no route
sends a request for a block to a peer that the block does not list. -/
theorem spans_sound_iff (moduleInfos : List RemoteModuleInfo) (minState : Int) :
    (SpansSound moduleInfos minState ↔ ReachesListed moduleInfos minState) ∧
      (ReachesListed moduleInfos online → ∀ current last route,
        Route (sortSpans moduleInfos).2 last current route → ∀ span ∈ route, ∀ i : Nat,
          span.start ≤ i → (i : Int) < span.stop →
            (listed moduleInfos online span.peerId i).isSome = true) := by
  refine ⟨spansSound_iff moduleInfos minState, fun hreaches current last route hroute => ?_⟩
  have hsound := (spansSound_iff moduleInfos online).mpr hreaches
  induction hroute with
  | done => exact fun span hspan => (by cases hspan)
  | hop hlt hcandidates hchosen _ ih =>
    obtain ⟨-, rfl⟩ := sortSpans_containing hcandidates
    obtain ⟨hmem, hstart, -⟩ := mem_containing.mp hchosen
    obtain ⟨-, -, -, hlisted⟩ := hsound _ (mem_byLength.mp hmem)
    intro span hspan i hfirst hstop
    rcases List.mem_cons.mp hspan with rfl | hspan
    · -- the hop begins within the span it is taken from
      exact hlisted i (hstart.trans hfirst) hstop
    · exact ih span hspan i hfirst hstop

/-- A server that left blocks 1 and 2, under block 0 with its old range. -/
def staleRecord : ServerInfo where
  state := online
  throughput := .int 1
  startBlock := some 0
  endBlock := some 3
  manifestDigest := none
  signedAnnouncement := none
  adapters := []
  otherFields := []

def staleBlocks : List RemoteModuleInfo :=
  [⟨⟨"m", 0⟩, (∅ : Dict String ServerInfo).insert "a" staleRecord⟩, ⟨⟨"m", 1⟩, ∅⟩, ⟨⟨"m", 2⟩, ∅⟩]

/-- **A stale record makes a span.** The record under block 0 makes a span of three blocks, two of which
list nobody. -/
theorem stale_record_reaches_unlisted_blocks :
    ¬ ∀ moduleInfos minState, SpansSound moduleInfos minState := by
  intro h
  have hspans : (computeSpans staleBlocks online).map
      (fun span => (span.peerId, span.start, span.stop)) = [("a", 0, 3)] := by
    decide +kernel
  obtain ⟨span, hmem, hspan⟩ : ∃ span ∈ computeSpans staleBlocks online,
      (span.peerId, span.start, span.stop) = ("a", 0, 3) := by
    have hhead : ("a", (0 : Int), (3 : Int)) ∈ (computeSpans staleBlocks online).map
        (fun span => (span.peerId, span.start, span.stop)) := by
      rw [hspans]
      exact List.mem_singleton_self _
    exact List.mem_map.mp hhead
  simp only [Prod.mk.injEq] at hspan
  obtain ⟨hpeer, hstart, hstop⟩ := hspan
  have hlisted := (h staleBlocks online span hmem).2.2.2 1 (by omega) (by omega)
  rw [hpeer] at hlisted
  exact absurd hlisted (by decide +kernel)

/-! ### The table over its operations -/

namespace RemoteSequenceInfo

variable {s s' : RemoteSequenceInfo} {peerId : String}

/-- The spans are those of what the blocks list. -/
def FollowsInfos (s : RemoteSequenceInfo) : Prop :=
  s.spansByPriority = (sortSpans s.blockInfos).1 ∧ s.spansContainingBlock = (sortSpans s.blockInfos).2

/-- Neither a block nor a span mentions the peer. -/
structure Gone (peerId : String) (s : RemoteSequenceInfo) : Prop where
  infos : ∀ info ∈ s.blockInfos, info.servers.lookup peerId = none
  priority : ∀ span ∈ s.spansByPriority, span.peerId ≠ peerId
  containing : ∀ spans ∈ s.spansContainingBlock, ∀ span ∈ spans, span.peerId ≠ peerId

/-- `remove_peer_` returns `True` exactly when it leaves a block without a span. -/
def Noticed (s : RemoteSequenceInfo) (peerId : String) : Prop :=
  (s.removePeer peerId).1 = true ↔ ∃ i : Nat, (s.removePeer peerId).2.spansContainingBlock[i]? = some []

/-- The condition on what a removal leaves: some block lists nobody exactly when some block is out of what
the deciding online records reach. -/
def LossSeen (blockInfos : List RemoteModuleInfo) : Prop :=
  let ctx := spanContext blockInfos online
  (∃ info ∈ blockInfos, ∀ peerId, info.servers.lookup peerId = none) ↔
    ∃ i < blockInfos.length, ∀ peerId block info, Decides blockInfos online peerId block info →
      ctx.firstBlock block info ≤ i → ¬ Reaches ctx blockInfos peerId block info i

/-- An update is for the blocks of the table, in order. -/
def Aligned (s : RemoteSequenceInfo) : TableOp → Prop
  | .update newBlockInfos => newBlockInfos.map RemoteModuleInfo.uid = s.blockUids
  | .removePeer _ => True

/-- An update does not list the peer. -/
def NeverLists (peerId : String) (_ : RemoteSequenceInfo) : TableOp → Prop
  | .update newBlockInfos => ∀ info ∈ newBlockInfos, info.servers.lookup peerId = none
  | .removePeer _ => True

theorem derive_follows (s : RemoteSequenceInfo) (blockInfos : List RemoteModuleInfo) :
    (s.derive blockInfos).FollowsInfos :=
  ⟨rfl, rfl⟩

/-- No span mentions a peer that no block lists. -/
theorem peerId_ne_of_unlisted {blockInfos : List RemoteModuleInfo} {minState : Int}
    (h : ∀ info ∈ blockInfos, info.servers.lookup peerId = none) {span : RemoteSpanInfo}
    (hspan : span ∈ computeSpans blockInfos minState) : span.peerId ≠ peerId := by
  rintro rfl
  obtain ⟨block, hof⟩ := spanOf_of_mem hspan
  obtain ⟨hlookup, -⟩ := Option.filter_eq_some_iff.mp hof.decides.lists
  obtain ⟨info, hinfo, hlookup⟩ := Option.bind_eq_some_iff.mp hlookup
  exact absurd ((h info (List.mem_of_getElem? hinfo)).symm.trans hlookup) (Option.some_ne_none _).symm

theorem makeEmpty_follows (blockUids : List ModuleUid) : (makeEmpty blockUids).FollowsInfos := by
  have hspans : (sortSpans (makeEmpty blockUids).blockInfos).1 = [] := by
    rw [List.eq_nil_iff_forall_not_mem]
    intro span hspan
    refine peerId_ne_of_unlisted (fun info hinfo => ?_) (mem_byLength.mp hspan) rfl
    obtain ⟨uid, -, rfl⟩ := List.mem_map.mp hinfo
    rfl
  refine ⟨hspans.symm, ?_⟩
  show blockUids.map (fun _ => []) = (List.range _).map (containing (sortSpans _).1)
  rw [hspans]
  show blockUids.map (fun _ => []) = (List.range _).map fun _ => []
  rw [List.map_const', List.map_const', List.length_range, makeEmpty, List.length_map]

/-- An update for the blocks of the table passes its assertions. -/
theorem updateServers_ok {uids : List ModuleUid} {newBlockInfos : List RemoteModuleInfo}
    (h : newBlockInfos.map RemoteModuleInfo.uid = uids) (blockInfos : List RemoteModuleInfo) :
    (updateServers uids blockInfos newBlockInfos).1 = .ok () := by
  induction newBlockInfos generalizing uids blockInfos with
  | nil =>
    obtain rfl := h
    rfl
  | cons info infos ih =>
    obtain rfl := h
    cases blockInfos with
    | nil => rfl
    | cons blockInfo blockInfos =>
      show (updateServers (info.uid :: infos.map RemoteModuleInfo.uid) (blockInfo :: blockInfos)
        (info :: infos)).1 = .ok ()
      unfold updateServers
      rw [if_pos rfl]
      exact ih rfl blockInfos

/-- What a block lists afterwards it listed before, or the update lists. -/
theorem mem_updateServers {uids : List ModuleUid} {blockInfos newBlockInfos : List RemoteModuleInfo}
    {info : RemoteModuleInfo} (h : info ∈ (updateServers uids blockInfos newBlockInfos).2) :
    ∃ source, (source ∈ blockInfos ∨ source ∈ newBlockInfos) ∧ info.servers = source.servers := by
  induction uids generalizing blockInfos newBlockInfos with
  | nil => exact ⟨info, Or.inl h, rfl⟩
  | cons uid uids ih =>
    cases blockInfos with
    | nil => exact ⟨info, Or.inl h, rfl⟩
    | cons blockInfo blockInfos =>
      cases newBlockInfos with
      | nil => exact ⟨info, Or.inl h, rfl⟩
      | cons newInfo newInfos =>
        unfold updateServers at h
        split at h
        · rcases List.mem_cons.mp h with rfl | h
          · exact ⟨newInfo, Or.inr List.mem_cons_self, rfl⟩
          · obtain ⟨source, hsource, hservers⟩ := ih h
            exact ⟨source, hsource.imp (List.mem_cons_of_mem _) (List.mem_cons_of_mem _), hservers⟩
        · exact ⟨info, Or.inl h, rfl⟩

/-- **The table follows its blocks** after a removal, and after an update for them. -/
theorem follows_next {op : TableOp} (haligned : s.Aligned op)
    (hnext : tableMachine.next s op = some s') : s'.FollowsInfos := by
  cases op with
  | removePeer peerId =>
    obtain rfl := Option.some.inj hnext
    exact s.derive_follows _
  | update newBlockInfos =>
    obtain rfl := Option.some.inj hnext
    have hlength : newBlockInfos.length = s.blockUids.length := by
      rw [← haligned, List.length_map]
    have hok := updateServers_ok haligned s.blockInfos
    unfold update
    rw [if_neg (not_not.mpr hlength)]
    rcases hservers : updateServers s.blockUids s.blockInfos newBlockInfos with ⟨result, blockInfos⟩
    rw [hservers] at hok
    obtain rfl : result = .ok () := hok
    exact s.derive_follows blockInfos

theorem gone_derive {blockInfos : List RemoteModuleInfo}
    (h : ∀ info ∈ blockInfos, info.servers.lookup peerId = none) : (s.derive blockInfos).Gone peerId where
  infos := h
  priority span hspan := peerId_ne_of_unlisted h (mem_byLength.mp hspan)
  containing spans hspans span hspan := by
    obtain ⟨block, -, rfl⟩ := List.mem_map.mp hspans
    exact peerId_ne_of_unlisted h (mem_byLength.mp (mem_containing.mp hspan).1)

theorem lookup_without {blockInfos : List RemoteModuleInfo} {removed : String}
    (h : peerId = removed ∨ ∀ info ∈ blockInfos, info.servers.lookup peerId = none) :
    ∀ info ∈ without removed blockInfos, info.servers.lookup peerId = none := by
  intro info hinfo
  obtain ⟨source, hsource, rfl⟩ := List.mem_map.mp hinfo
  by_cases hpeer : peerId = removed
  · rw [hpeer]
    exact AList.lookup_erase _ _
  · show (source.servers.erase removed).lookup peerId = none
    rw [AList.lookup_erase_ne hpeer]
    exact h.resolve_left hpeer source hsource

/-- **A peer that is gone stays away** from a table whose updates do not list it. -/
theorem Gone.next {op : TableOp} (h : s.Gone peerId) (hnever : NeverLists peerId s op)
    (hnext : tableMachine.next s op = some s') : s'.Gone peerId := by
  cases op with
  | removePeer removed =>
    obtain rfl := Option.some.inj hnext
    exact gone_derive (lookup_without (Or.inr h.infos))
  | update newBlockInfos =>
    obtain rfl := Option.some.inj hnext
    have hunlisted : ∀ info ∈ (updateServers s.blockUids s.blockInfos newBlockInfos).2,
        info.servers.lookup peerId = none := by
      intro info hinfo
      obtain ⟨source, hsource, hservers⟩ := mem_updateServers hinfo
      rw [hservers]
      exact hsource.elim (h.infos source) (hnever source)
    unfold update
    split
    · exact h
    rcases hservers : updateServers s.blockUids s.blockInfos newBlockInfos with ⟨result, blockInfos⟩
    rw [hservers] at hunlisted
    cases result with
    | ok _ => exact gone_derive hunlisted
    | error e => exact ⟨hunlisted, h.priority, h.containing⟩

/-! ### Lost routes -/

/-- A block is in no span when it is out of what the deciding records reach. -/
theorem containing_eq_nil_iff {blockInfos : List RemoteModuleInfo} {i : Nat} :
    containing (sortSpans blockInfos).1 i = [] ↔
      ∀ peerId block info, Decides blockInfos online peerId block info →
        (spanContext blockInfos online).firstBlock block info ≤ i →
          ¬ Reaches (spanContext blockInfos online) blockInfos peerId block info i := by
  rw [List.eq_nil_iff_forall_not_mem]
  constructor
  · intro h peerId block info hdecides hfirst hreaches
    obtain ⟨span, hmem, rfl, hof⟩ := hdecides.exists_span
    refine h span (mem_containing.mpr ⟨mem_byLength.mpr hmem, ?_, (hof.lt_stop i).mpr hreaches⟩)
    rw [hof.start_eq]
    exact hfirst
  · intro h span hspan
    obtain ⟨hmem, hstart, hstop⟩ := mem_containing.mp hspan
    obtain ⟨block, hof⟩ := spanOf_of_mem (mem_byLength.mp hmem)
    rw [hof.start_eq] at hstart
    exact h span.peerId block span.serverInfo hof.decides hstart ((hof.lt_stop i).mp hstop)

theorem entries_isEmpty_iff {servers : Dict String ServerInfo} :
    servers.entries.isEmpty = true ↔ ∀ peerId, servers.lookup peerId = none := by
  rw [List.isEmpty_iff]
  constructor
  · intro h peerId
    rw [AList.lookup_eq_none, AList.mem_keys, AList.keys, h]
    exact List.not_mem_nil
  · intro h
    rw [List.eq_nil_iff_forall_not_mem]
    intro e he
    exact absurd ((h e.1).symm.trans (AList.mem_lookup_iff.mpr he)) (Option.some_ne_none e.2).symm

/-- **When a removal notices a lost route.** -/
theorem noticed_iff (s : RemoteSequenceInfo) (peerId : String) :
    s.Noticed peerId ↔ LossSeen (without peerId s.blockInfos) := by
  unfold Noticed LossSeen removePeer
  dsimp only
  generalize without peerId s.blockInfos = blockInfos
  have hreturned : (blockInfos.any fun info => info.servers.entries.isEmpty) = true ↔
      ∃ info ∈ blockInfos, ∀ peerId, info.servers.lookup peerId = none := by
    rw [List.any_eq_true]
    exact exists_congr fun info => and_congr_right fun _ => entries_isEmpty_iff
  have hlost : (∃ i : Nat, (s.derive blockInfos).spansContainingBlock[i]? = some []) ↔
      ∃ i < blockInfos.length, ∀ peerId block info, Decides blockInfos online peerId block info →
        (spanContext blockInfos online).firstBlock block info ≤ i →
          ¬ Reaches (spanContext blockInfos online) blockInfos peerId block info i := by
    refine exists_congr fun i => ?_
    rw [← containing_eq_nil_iff]
    constructor
    · intro h
      obtain ⟨hlt, hnil⟩ := sortSpans_containing h
      exact ⟨hlt, hnil.symm⟩
    · rintro ⟨hlt, hnil⟩
      show ((List.range blockInfos.length).map (containing (sortSpans blockInfos).1))[i]? = some []
      rw [List.getElem?_map, List.getElem?_range hlt, Option.map_some, hnil]
  rw [hreturned, hlost]

end RemoteSequenceInfo

open RemoteSequenceInfo

/-- One block, with an online server and one that is still joining. -/
def joiningBlock : List RemoteModuleInfo :=
  [⟨⟨"m", 0⟩, ((∅ : Dict String ServerInfo).insert "a" { staleRecord with endBlock := some 1 }).insert "b"
    { staleRecord with endBlock := some 1, state := joining }⟩]

/-- The table after an update with that block. -/
def joiningTable : RemoteSequenceInfo := ((makeEmpty [⟨"m", 0⟩]).update joiningBlock).2

theorem joiningTable_reached : tableMachine.Reach Aligned (makeEmpty [⟨"m", 0⟩]) joiningTable :=
  Machine.Reach.refl.tail (show Aligned _ (.update joiningBlock) from rfl) rfl

end Drift.Client
