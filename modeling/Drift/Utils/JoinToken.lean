import Drift.Lib.IpAddress
import Drift.Lib.Outcome

/-!
# Join tokens

A join token is the short form of an address of the swarm: `drift://<peer id>@<host>:<port>` stands for
`/<protocol>/<host>/tcp/<port>/p2p/<peer id>`. The protocol is not in the token. It is inferred from the host on
decoding, so that the three protocols of host names become one.

* `encodeJoinToken`, `decodeJoinToken`, `parseJoin` — the two directions, and lists of both forms;
* `encode_render`, `decode_token` — the parts of an address through the encoder, and of a token through the decoder;
* `join_tokens_round_trip` — an address comes back from its token, and a list of addresses and tokens is read.

The delimiters decide what an address may contain. A text ends where white space starts that is stripped, an IPv6
host ends at the first bracket, and a list is split at every comma.
-/

namespace Drift.Utils

open Drift.Lib

/-- A string of Python, as the list of its code points. -/
abbrev Text := List Char

/-- White space that `str.strip` removes. -/
def isSpace (c : Char) : Bool :=
  let n := c.toNat
  decide (9 ≤ n ∧ n ≤ 13 ∨ 28 ≤ n ∧ n ≤ 32 ∨ n = 0x85 ∨ n = 0xA0 ∨ n = 0x1680 ∨ 0x2000 ≤ n ∧ n ≤ 0x200A ∨
    n = 0x2028 ∨ n = 0x2029 ∨ n = 0x202F ∨ n = 0x205F ∨ n = 0x3000)

/-- The characters that `str.isdigit` accepts: of ASCII the ten digits, and no white space. -/
structure DigitTable where
  isDigit : Char → Bool
  ascii : ∀ c : Char, c.toNat < 128 → isDigit c = c.isDigit
  notSpace : ∀ c, isDigit c = true → isSpace c = false

/-- What the three functions raise. -/
inductive JoinError
  | notMultiaddr
  | unsupportedHostProtocol (hostProto : Text)
  | unsupportedTransport (transport : Text)
  | missingPeer
  | portNotNumeric (port : Text)
  | missingScheme
  | malformedToken
  | unterminatedHost
  | missingPort
  | unknownForm (item : Text)
  | noAddresses
  deriving DecidableEq, Repr

/-- `SCHEME`. -/
def scheme : Text := ['d', 'r', 'i', 'f', 't', ':', '/', '/']

def ip4 : Text := ['i', 'p', '4']
def ip6 : Text := ['i', 'p', '6']
def dns : Text := ['d', 'n', 's']
def dns4 : Text := ['d', 'n', 's', '4']
def dns6 : Text := ['d', 'n', 's', '6']
def tcp : Text := ['t', 'c', 'p']
def p2p : Text := ['p', '2', 'p']

/-- `_HOST_PROTOCOLS`. -/
def hostProtocols : List Text := [ip4, ip6, dns, dns4, dns6]

variable (table : DigitTable)

/-- `text.isdigit()`. -/
def isDigitText (text : Text) : Bool := !text.isEmpty && text.all table.isDigit

/-- `f"{SCHEME}{peer_id}@{host_part}:{port}"`. -/
def token (hostProto host port peerId : Text) : Text :=
  let hostPart := if hostProto = ip6 then ['['] ++ host ++ [']'] else host
  scheme ++ peerId ++ ['@'] ++ hostPart ++ [':'] ++ port

/-- `f"/{host_proto}/{host}/tcp/{port}/p2p/{peer_id}"`. -/
def multiaddr (hostProto host port peerId : Text) : Text :=
  ['/'] ++ hostProto ++ ['/'] ++ host ++ ['/'] ++ tcp ++ ['/'] ++ port ++ ['/'] ++ p2p ++ ['/'] ++ peerId

/-- The token of an address. -/
def encodeJoinToken (maddr : Text) : Except JoinError Text :=
  match (strip isSpace maddr).splitOn '/' with
  | [first, hostProto, host, transport, port, p2p', peerId] =>
    if first ≠ [] then .error .notMultiaddr
    else if hostProto ∉ hostProtocols then .error (.unsupportedHostProtocol hostProto)
    else if transport ≠ tcp then .error (.unsupportedTransport transport)
    else if p2p' ≠ p2p then .error .missingPeer
    else if !isDigitText table port then .error (.portNotNumeric port)
    else .ok (token hostProto host port peerId)
  | _ => .error .notMultiaddr

/-- `text.lower().startswith(SCHEME)`. No character beyond ASCII becomes one of the scheme in lower case. -/
def hasScheme (text : Text) : Bool := (text.take scheme.length).map Char.toLower == scheme

/-- The protocol of a host without brackets. -/
def inferHostProtocol (host : Text) : Text :=
  match ipVersion host with
  | none => dns
  | some version => if version = 6 then ip6 else ip4

/-- The protocol, the host and the port of a token's address. -/
def splitAddress (address : Text) : Except JoinError (Text × Text × Text) :=
  if address.head? = some '[' then
    match partition ']' address with
    | none => .error .unterminatedHost
    | some (host, rest) =>
      if rest.head? = some ':' then .ok (ip6, host.tail, rest.tail) else .error .unterminatedHost
  else
    match rpartition ':' address with
    | none => .error .missingPort
    | some (host, port) => .ok (inferHostProtocol host, host, port)

/-- The address of a token. -/
def decodeJoinToken (text : Text) : Except JoinError Text :=
  let text := strip isSpace text
  if !hasScheme text then .error .missingScheme
  else match partition '@' (text.drop scheme.length) with
    | none => .error .malformedToken
    | some (peerId, address) =>
      if peerId.isEmpty || address.isEmpty then .error .malformedToken
      else do
        let (hostProto, host, port) ← splitAddress address
        if !isDigitText table port then throw (.portNotNumeric port)
        return multiaddr hostProto host port peerId

/-- One item of a list: an address as it is, or that of a token. -/
def parseItem (item : Text) : Except JoinError Text :=
  if hasScheme item then decodeJoinToken table item
  else if item.head? = some '/' then .ok item
  else .error (.unknownForm item)

/-- The addresses of a comma-separated list. -/
def parseJoin (value : Text) : Except JoinError (List Text) := do
  let items := ((value.splitOn ',').map (strip isSpace)).filter fun item => !item.isEmpty
  let maddrs ← items.mapM (parseItem table)
  if maddrs.isEmpty then throw .noAddresses
  return maddrs

/-! ### Addresses -/

/-- The protocol of a host. -/
inductive HostProtocol
  | ip4
  | ip6
  | dns
  | dns4
  | dns6
  deriving DecidableEq, Repr

def HostProtocol.name : HostProtocol → Text
  | .ip4 => Utils.ip4
  | .ip6 => Utils.ip6
  | .dns => Utils.dns
  | .dns4 => Utils.dns4
  | .dns6 => Utils.dns6

/-- The protocol that is left of it after decoding. -/
def HostProtocol.decoded : HostProtocol → HostProtocol
  | .ip4 => .ip4
  | .ip6 => .ip6
  | .dns | .dns4 | .dns6 => .dns

/-- A host that is valid for its protocol: an IP literal of its version, or a name that is no IP literal. -/
def HostProtocol.Allows (proto : HostProtocol) (host : Text) : Prop :=
  match proto with
  | .ip4 => isIpv4Literal host = true
  | .ip6 => isIpv6Literal host = true
  | .dns | .dns4 | .dns6 => '/' ∉ host ∧ ':' ∉ host ∧ ipVersion host = none

instance (proto : HostProtocol) (host : Text) : Decidable (proto.Allows host) :=
  match proto with
  | .ip4 => inferInstanceAs (Decidable (isIpv4Literal host = true))
  | .ip6 => inferInstanceAs (Decidable (isIpv6Literal host = true))
  | .dns | .dns4 | .dns6 => inferInstanceAs (Decidable ('/' ∉ host ∧ ':' ∉ host ∧ ipVersion host = none))

/-- `/<proto>/<host>/tcp/<port>/p2p/<peer id>`. -/
structure Address where
  proto : HostProtocol
  host : Text
  port : Text
  peerId : Text
  deriving DecidableEq

namespace Address

def render (a : Address) : Text := multiaddr a.proto.name a.host a.port a.peerId

def token (a : Address) : Text := Utils.token a.proto.name a.host a.port a.peerId

def decoded (a : Address) : Address := { a with proto := a.proto.decoded }

/-- An address whose host is valid for its protocol, and whose peer identifier has none of the delimiters. -/
structure Valid (table : DigitTable) (a : Address) : Prop where
  host : a.proto.Allows a.host
  port : isDigitText table a.port = true
  peerId : '@' ∉ a.peerId ∧ '/' ∉ a.peerId ∧ ',' ∉ a.peerId

/-- What encoding and decoding need besides: a peer identifier that is there and is not stripped, and a host that
does not look like one in brackets, or end one. -/
structure Encodable (a : Address) : Prop where
  peerId_ne : a.peerId ≠ []
  peerId_last : ∀ c ∈ a.peerId.getLast?, isSpace c = false
  zone : a.proto = .ip6 → ']' ∉ a.host
  name : a.proto.decoded = .dns → a.host.head? ≠ some '['

/-- What a list needs besides: a host without a comma. -/
def Listable (a : Address) : Prop := ',' ∉ a.host

instance (a : Address) : Decidable a.Listable := inferInstanceAs (Decidable (',' ∉ a.host))

end Address

variable {table} {a : Address}

theorem digit_of_isDigitText {text : Text} (h : isDigitText table text = true) {c : Char} (hc : c ∈ text) :
    table.isDigit c = true := by
  unfold isDigitText at h
  rw [Bool.and_eq_true] at h
  exact List.all_eq_true.mp h.2 c hc

theorem ne_nil_of_isDigitText {text : Text} (h : isDigitText table text = true) : text ≠ [] := by
  rintro rfl
  exact Bool.noConfusion h

/-- An ASCII character that is no digit does not stand in a port. -/
theorem not_mem_port {text : Text} (h : isDigitText table text = true) {c : Char} (hascii : c.toNat < 128)
    (hdigit : c.isDigit = false) : c ∉ text := by
  intro hc
  have := digit_of_isDigitText h hc
  rw [table.ascii c hascii, hdigit] at this
  exact Bool.noConfusion this

theorem slash_not_mem_host (h : a.Valid table) : '/' ∉ a.host := by
  have hhost := h.host
  unfold HostProtocol.Allows at hhost
  split at hhost
  · unfold isIpv4Literal at hhost
    rw [Bool.and_eq_true, Bool.and_eq_true] at hhost
    simpa using hhost.1.1
  · unfold isIpv6Literal at hhost
    rw [Bool.and_eq_true] at hhost
    simpa using hhost.1
  all_goals exact hhost.1

theorem slash_not_mem_name (proto : HostProtocol) : '/' ∉ proto.name := by
  cases proto <;> decide

/-- The text of an address, from one delimiter to the next. -/
theorem multiaddr_eq (hostProto host port peerId : Text) :
    multiaddr hostProto host port peerId = [] ++ '/' :: (hostProto ++ '/' :: (host ++ '/' :: (tcp ++ '/' ::
      (port ++ '/' :: (p2p ++ '/' :: peerId))))) := by
  simp [multiaddr]

/-- An address is not changed by stripping it. -/
theorem render_trimmed (h : ∀ c ∈ a.peerId.getLast?, isSpace c = false) : Trimmed isSpace a.render := by
  constructor
  · intro c hc
    unfold Address.render at hc
    rw [multiaddr_eq] at hc
    obtain rfl : '/' = c := Option.some.inj hc
    decide
  · intro c hc
    unfold Address.render multiaddr at hc
    by_cases hpeer : a.peerId = []
    · -- the last character is the slash before it
      rw [hpeer, List.append_nil, List.getLast?_concat] at hc
      obtain rfl : '/' = c := Option.some.inj hc
      decide
    · rw [List.getLast?_append_of_ne_nil _ hpeer] at hc
      exact h c hc

theorem render_ne_nil (a : Address) : a.render ≠ [] := by
  unfold Address.render
  rw [multiaddr_eq]
  exact List.cons_ne_nil _ _

/-- **The encoder** takes an address apart at its slashes. -/
theorem encode_render (h : a.Valid table) (henc : a.Encodable) : encodeJoinToken table a.render = .ok a.token := by
  have hport : '/' ∉ a.port := not_mem_port h.port (by decide) (by decide)
  have hsplit : a.render.splitOn '/' = [[], a.proto.name, a.host, tcp, a.port, p2p, a.peerId] := by
    unfold Address.render
    rw [multiaddr_eq, List.splitOn_append_cons_self_of_not_mem List.not_mem_nil,
      List.splitOn_append_cons_self_of_not_mem (slash_not_mem_name a.proto),
      List.splitOn_append_cons_self_of_not_mem (slash_not_mem_host h),
      List.splitOn_append_cons_self_of_not_mem (by decide), List.splitOn_append_cons_self_of_not_mem hport,
      List.splitOn_append_cons_self_of_not_mem (by decide), List.splitOn_eq_singleton h.peerId.2.1]
  have hproto : a.proto.name ∈ hostProtocols := by
    cases a.proto <;> decide
  unfold encodeJoinToken
  rw [strip_eq_self (render_trimmed henc.peerId_last) (render_ne_nil a), hsplit]
  dsimp only
  rw [if_neg (not_not.mpr rfl), if_neg (not_not.mpr hproto), if_neg (not_not.mpr rfl), if_neg (not_not.mpr rfl),
    if_neg (by rw [h.port]; decide)]
  rfl

/-! ### Decoding -/

theorem hasScheme_append (rest : Text) : hasScheme (scheme ++ rest) = true := by
  unfold hasScheme
  rw [List.take_left' rfl]
  decide

/-- What stands between the peer identifier and the port. -/
def hostPart (hostProto host : Text) : Text := if hostProto = ip6 then ['['] ++ host ++ [']'] else host

theorem token_eq (hostProto host port peerId : Text) :
    token hostProto host port peerId =
      scheme ++ (peerId ++ '@' :: (hostPart hostProto host ++ ':' :: port)) := by
  simp [token, hostPart]

theorem token_trimmed (h : a.Valid table) : Trimmed isSpace a.token := by
  constructor
  · intro c hc
    unfold Address.token at hc
    rw [token_eq] at hc
    obtain rfl : 'd' = c := Option.some.inj hc
    decide
  · intro c hc
    unfold Address.token token at hc
    rw [List.getLast?_append_of_ne_nil _ (ne_nil_of_isDigitText h.port)] at hc
    exact table.notSpace c (digit_of_isDigitText h.port (List.mem_of_getLast? hc))

theorem token_ne_nil (a : Address) : a.token ≠ [] := by
  unfold Address.token
  rw [token_eq]
  exact List.cons_ne_nil _ _

/-- The protocol that is inferred from a host without brackets. -/
theorem inferHostProtocol_eq (h : a.proto.Allows a.host) (hproto : a.proto ≠ .ip6) :
    inferHostProtocol a.host = a.proto.decoded.name := by
  unfold HostProtocol.Allows at h
  unfold inferHostProtocol
  split at h
  · have hversion : ipVersion a.host = some 4 := if_pos h
    rename_i heq
    rw [hversion, heq]
    rfl
  · rename_i heq
    exact absurd heq hproto
  all_goals
    rename_i heq
    rw [h.2.2, heq]
    rfl

/-- The first character of a host without brackets is no bracket. -/
theorem head_ne_bracket (h : a.Valid table) (henc : a.Encodable) (hproto : a.proto ≠ .ip6) :
    a.host.head? ≠ some '[' := by
  cases hp : a.proto with
  | ip6 => exact absurd hp hproto
  | ip4 =>
    intro hhead
    have hallows := h.host
    rw [hp] at hallows
    rcases isIpv4Literal_chars hallows (List.mem_of_mem_head? hhead) with heq | hdigit
    · exact absurd heq (by decide)
    · exact absurd hdigit (by decide)
  | dns | dns4 | dns6 =>
    refine henc.name ?_
    rw [hp]
    rfl

/-- The address part of a token. -/
theorem splitAddress_hostPart (h : a.Valid table) (henc : a.Encodable) :
    splitAddress (hostPart a.proto.name a.host ++ ':' :: a.port) = .ok (a.proto.decoded.name, a.host, a.port) := by
  unfold splitAddress hostPart
  by_cases hproto : a.proto = .ip6
  · -- the host in its brackets
    have hname : a.proto.name = ip6 := by rw [hproto]; rfl
    have hbracket : ']' ∉ '[' :: a.host := by
      intro hmem
      rcases List.mem_cons.mp hmem with heq | hmem
      · exact absurd heq (by decide)
      · exact henc.zone hproto hmem
    have hsplit : partition ']' (['['] ++ a.host ++ [']'] ++ ':' :: a.port) = some ('[' :: a.host, ':' :: a.port) := by
      have hcut : partition ']' (('[' :: a.host) ++ ']' :: ':' :: a.port) = some ('[' :: a.host, ':' :: a.port) :=
        partition_append hbracket
      rw [← hcut]
      simp
    have hhead : (['['] ++ a.host ++ [']'] ++ ':' :: a.port).head? = some '[' := rfl
    have hcolon : (':' :: a.port).head? = some ':' := rfl
    rw [if_pos hname, if_pos hhead, hsplit]
    dsimp only
    rw [if_pos hcolon, hproto]
    rfl
  · have hname : a.proto.name ≠ ip6 := by
      cases hp : a.proto with
      | ip6 => exact absurd hp hproto
      | ip4 | dns | dns4 | dns6 => decide
    have hhead : (a.host ++ ':' :: a.port).head? ≠ some '[' := by
      intro hhead
      cases hhost : a.host with
      | nil =>
        rw [hhost] at hhead
        exact absurd (Option.some.inj hhead) (by decide)
      | cons c rest =>
        rw [hhost] at hhead
        exact head_ne_bracket h henc hproto (by rw [hhost]; exact hhead)
    have hport : ':' ∉ a.port := not_mem_port h.port (by decide) (by decide)
    rw [if_neg hname, if_neg hhead, rpartition_append hport]
    dsimp only
    rw [inferHostProtocol_eq h.host hproto]

/-- **The decoder** finds the parts of a token between its delimiters. -/
theorem decode_token (h : a.Valid table) (henc : a.Encodable) :
    decodeJoinToken table a.token = .ok a.decoded.render := by
  have htoken : a.token = scheme ++ (a.peerId ++ '@' :: (hostPart a.proto.name a.host ++ ':' :: a.port)) := token_eq ..
  have hpeer : a.peerId.isEmpty = false := by
    rw [Bool.eq_false_iff, ne_eq, List.isEmpty_iff]
    exact henc.peerId_ne
  have haddress : (hostPart a.proto.name a.host ++ ':' :: a.port).isEmpty = false := by
    simp
  unfold decodeJoinToken
  rw [strip_eq_self (token_trimmed h) (token_ne_nil a), htoken]
  dsimp only
  rw [hasScheme_append, List.drop_left' rfl, partition_append h.peerId.1]
  dsimp only
  rw [hpeer, haddress]
  exact bind_eq_ok.mpr ⟨_, splitAddress_hostPart h henc, by
    dsimp only
    rw [h.port]
    rfl⟩

/-! ### Lists -/

/-- An item of a list: an address or its token, between white space. -/
structure JoinItem where
  address : Address
  asToken : Bool
  left : Text
  right : Text

namespace JoinItem

/-- The address or the token. -/
def form (item : JoinItem) : Text := if item.asToken then item.address.token else item.address.render

def text (item : JoinItem) : Text := item.left ++ item.form ++ item.right

/-- The address that the item stands for. -/
def meaning (item : JoinItem) : Text :=
  if item.asToken then item.address.decoded.render else item.address.render

structure Valid (table : DigitTable) (item : JoinItem) : Prop where
  address : item.address.Valid table
  peerId_last : ∀ c ∈ item.address.peerId.getLast?, isSpace c = false
  encodable : item.asToken = true → item.address.Encodable
  listable : item.address.Listable
  left : ∀ c ∈ item.left, isSpace c = true
  right : ∀ c ∈ item.right, isSpace c = true

end JoinItem

/-- The list, with commas between its items. -/
def joinList (items : List JoinItem) : Text := [','].intercalate (items.map JoinItem.text)

variable {item : JoinItem}

theorem form_trimmed (h : item.Valid table) : Trimmed isSpace item.form := by
  unfold JoinItem.form
  split
  · exact token_trimmed h.address
  · exact render_trimmed h.peerId_last

theorem form_ne_nil (item : JoinItem) : item.form ≠ [] := by
  unfold JoinItem.form
  split
  · exact token_ne_nil _
  · exact render_ne_nil _

theorem comma_not_mem_form (h : item.Valid table) : ',' ∉ item.form := by
  have hhost : ',' ∉ item.address.host := h.listable
  have hport : ',' ∉ item.address.port := not_mem_port h.address.port (by decide) (by decide)
  have hpeer := h.address.peerId.2.2
  have hname : ',' ∉ item.address.proto.name := by
    cases item.address.proto <;> decide
  unfold JoinItem.form
  split
  · unfold Address.token
    rw [token_eq]
    have hpart : ',' ∉ hostPart item.address.proto.name item.address.host := by
      unfold hostPart
      split
      · simpa using hhost
      · exact hhost
    simp [scheme, hpart, hpeer, hport]
  · unfold Address.render
    rw [multiaddr_eq]
    simp [tcp, p2p, hname, hhost, hport, hpeer]

theorem comma_not_mem_text (h : item.Valid table) : ',' ∉ item.text := by
  intro hmem
  rcases List.mem_append.mp hmem with hmem | hright
  · rcases List.mem_append.mp hmem with hleft | hform
    · exact absurd (h.left _ hleft) (by decide)
    · exact comma_not_mem_form h hform
  · exact absurd (h.right _ hright) (by decide)

theorem strip_text (h : item.Valid table) : strip isSpace item.text = item.form :=
  strip_append h.left h.right (form_trimmed h) (form_ne_nil item)

/-- An item is read as its address. -/
theorem parseItem_form (h : item.Valid table) : parseItem table item.form = .ok item.meaning := by
  unfold JoinItem.form JoinItem.meaning parseItem
  split
  · rename_i htoken
    have hscheme : hasScheme item.address.token = true := by
      unfold Address.token
      rw [token_eq]
      exact hasScheme_append _
    rw [if_pos hscheme]
    exact decode_token h.address (h.encodable htoken)
  · have hscheme : hasScheme item.address.render = false := by
      unfold Address.render
      rw [multiaddr_eq]
      rfl
    have hhead : item.address.render.head? = some '/' := rfl
    rw [hscheme, if_neg Bool.false_ne_true, if_pos hhead]

/-- **A list is read item by item.** -/
theorem parseJoin_joinList {items : List JoinItem} (hne : items ≠ []) (h : ∀ item ∈ items, item.Valid table) :
    parseJoin table (joinList items) = .ok (items.map JoinItem.meaning) := by
  have hsplit : (joinList items).splitOn ',' = items.map JoinItem.text := by
    refine List.splitOn_intercalate ',' (fun text htext => ?_) (by simpa using hne)
    obtain ⟨item, hitem, rfl⟩ := List.mem_map.mp htext
    exact comma_not_mem_text (h item hitem)
  have hstrip : (items.map JoinItem.text).map (strip isSpace) = items.map JoinItem.form := by
    rw [List.map_map]
    exact List.map_congr_left fun item hitem => strip_text (h item hitem)
  have hfilter : ((items.map JoinItem.form).filter fun item => !item.isEmpty) = items.map JoinItem.form := by
    refine List.filter_eq_self.mpr fun form hform => ?_
    obtain ⟨item, -, rfl⟩ := List.mem_map.mp hform
    simpa using form_ne_nil item
  have hparse : (items.map JoinItem.form).mapM (parseItem table) = .ok (items.map JoinItem.meaning) := by
    rw [mapM_eq_ok, List.forall₂_map_left_iff, List.forall₂_map_right_iff, List.forall₂_same]
    exact fun item hitem => parseItem_form (h item hitem)
  unfold parseJoin
  rw [hsplit, hstrip, hfilter]
  refine bind_eq_ok.mpr ⟨_, hparse, ?_⟩
  rw [if_neg (by simpa using hne)]
  rfl

/-- **Join tokens round trip**: an address comes back from its token, and a list of addresses and tokens is read in
order. -/
theorem join_tokens_round_trip (table : DigitTable) :
    (∀ a : Address, a.Valid table → a.Encodable → encodeJoinToken table a.render = .ok a.token ∧
      decodeJoinToken table a.token = .ok a.decoded.render) ∧
    ∀ items : List JoinItem, items ≠ [] → (∀ item ∈ items, item.Valid table) →
      parseJoin table (joinList items) = .ok (items.map JoinItem.meaning) :=
  ⟨fun _ h henc => ⟨encode_render h henc, decode_token h henc⟩, fun _ hne h => parseJoin_joinList hne h⟩

/-- The digits of ASCII alone. -/
def asciiDigits : DigitTable where
  isDigit c := c.isDigit
  ascii _ _ := rfl
  notSpace c h := by
    have hge : 48 ≤ c.toNat ∧ c.toNat ≤ 57 := by
      simp only [Char.isDigit, Bool.and_eq_true, decide_eq_true_eq] at h
      exact h
    exact decide_eq_false (by omega)

def sampleIpv6 : Address := ⟨.ip6, "::1".toList, "31337".toList, "Qm".toList⟩

def sampleName : Address := ⟨.dns4, "seed.example".toList, "4001".toList, "Qn".toList⟩

/-- An IPv6 address as it is, and the token of a host name. -/
def sampleItems : List JoinItem := [⟨sampleIpv6, false, [' '], []⟩, ⟨sampleName, true, [], [' ', '\n']⟩]

theorem sampleItems_valid : ∀ item ∈ sampleItems, item.Valid asciiDigits := by
  intro item hitem
  rcases List.mem_cons.mp hitem with rfl | hitem
  · have hlast : ∀ c ∈ sampleIpv6.peerId.getLast?, isSpace c = false := by
      intro c hc
      obtain rfl : 'm' = c := Option.some.inj hc
      decide
    exact ⟨⟨by decide, by decide, by decide⟩, hlast, fun htoken => Bool.noConfusion htoken, by decide,
      List.all_eq_true.mp (by decide), List.all_eq_true.mp (by decide)⟩
  · obtain rfl := List.mem_singleton.mp hitem
    have hlast : ∀ c ∈ sampleName.peerId.getLast?, isSpace c = false := by
      intro c hc
      obtain rfl : 'n' = c := Option.some.inj hc
      decide
    exact ⟨⟨by decide, by decide, by decide⟩, hlast, fun _ => ⟨by decide, hlast, by decide, by decide⟩, by decide,
      List.all_eq_true.mp (by decide), List.all_eq_true.mp (by decide)⟩

theorem join_tokens_round_trip_of_sample :
    encodeJoinToken asciiDigits sampleName.render = .ok "drift://Qn@seed.example:4001".toList ∧
      parseJoin asciiDigits (joinList sampleItems) =
        .ok ["/ip6/::1/tcp/31337/p2p/Qm".toList, "/dns/seed.example/tcp/4001/p2p/Qn".toList] := by
  obtain ⟨hencode, hparse⟩ := join_tokens_round_trip asciiDigits
  have hname := sampleItems_valid ⟨sampleName, true, [], [' ', '\n']⟩ (List.mem_cons_of_mem _ List.mem_cons_self)
  exact ⟨(hencode sampleName hname.address (hname.encodable rfl)).1,
    hparse sampleItems (List.cons_ne_nil _ _) sampleItems_valid⟩

/-- An address with a peer identifier that is stripped, or none; a zone with a bracket in it; a name that starts with
one; and a name with a comma, which a list splits. -/
def spacedPeer : Address := ⟨.ip4, "10.0.0.1".toList, "4001".toList, "Qm ".toList⟩

def noPeer : Address := ⟨.ip4, "10.0.0.1".toList, "4001".toList, []⟩

def bracketZone : Address := ⟨.ip6, "fe80::1%]".toList, "4001".toList, "Qm".toList⟩

def bracketName : Address := ⟨.dns, "[seed".toList, "4001".toList, "Qm".toList⟩

def commaName : Address := ⟨.dns, "a,b".toList, "4001".toList, "Qm".toList⟩

/-- **Delimiters in an address.** The addresses are valid and do not come back. -/
theorem delimiters_break_round_trip :
    (∀ a ∈ [spacedPeer, noPeer, bracketZone, bracketName], a.Valid asciiDigits ∧
      encodeJoinToken asciiDigits a.render >>= decodeJoinToken asciiDigits ≠ .ok a.decoded.render) ∧
      commaName.Valid asciiDigits ∧ parseJoin asciiDigits (joinList [⟨commaName, false, [], []⟩]) =
        .error (.unknownForm "b/tcp/4001/p2p/Qm".toList) := by
  refine ⟨List.forall_mem_cons.mpr ⟨?_, List.forall_mem_cons.mpr ⟨?_, List.forall_mem_cons.mpr ⟨?_,
    List.forall_mem_singleton.mpr ?_⟩⟩⟩, ⟨by decide, by decide, by decide⟩, by decide⟩
  all_goals exact ⟨⟨by decide, by decide, by decide⟩, by decide⟩

end Drift.Utils
