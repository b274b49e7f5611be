/-
  File:      LocalSend/Signaling/Connect.lean
  Subject:   THE WAY INTO A ROOM: the request with which a client connects
             (`SignalingConnection::connect`) and what the server makes of it (`ws_handler`).

  * `IpAddr.fromStr` -- the parser of addresses of the standard library; `fromStr_toText`;
  * `connectUri`, `wsHandler` -- the info of the client in the query of the URI, and the server's
    way back to it; `wsHandler_connectUri` -- it is read as it was sent;
  * `clientIp` -- the address a proxy reports, or that of the socket; **`forwarded_group`** --
    what a client behind a proxy can do to its room: nothing, or leave it for the proxy's own;
  * `awaitHello`, `socketTexts` -- what the client reads until it knows itself, with a channel for
    one message that nobody reads until then; `Greeted` -- the hellos in the channels;
    **`connected_as_sent`** -- in every run of the server, whoever connects is told exactly what it
    has sent, or waits for ever behind two messages that came before its `Hello`.
-/
import LocalSend.Lib.Base64
import LocalSend.Lib.Percent
import LocalSend.Lib.Query
import LocalSend.Signaling.IpGroup
import LocalSend.Signaling.JsonWire
import LocalSend.Signaling.PeerInfo

namespace LocalSend.Signaling

open Lib Json
open Percent (Text utf8Text)

/-! ## 1. Addresses as texts -/

/-- `char::to_digit`. -/
def toDigit (radix : Nat) (c : Char) : Option Nat :=
  let digit :=
    if c.isDigit then some (c.toNat - '0'.toNat)
    else if c.isAlpha then some (c.toLower.toNat - 'a'.toNat + 10)
    else none
  digit.filter (· < radix)

/-- The number of a list of digits. -/
def ofDigits (radix : Nat) (digits : Text) : Nat :=
  digits.foldl (fun n c => n * radix + (toDigit radix c).getD 0) 0

/-- `read_number`: at most `maxDigits` digits, for a number below `size`. -/
def readNumber (radix maxDigits size : Nat) (zeroPrefix : Bool) (cs : Text) :
    Option (Nat × Text) :=
  let digits := cs.takeWhile fun c => (toDigit radix c).isSome
  if digits = [] ∨ maxDigits < digits.length then none
  else if zeroPrefix = false ∧ digits.head? = some '0' ∧ 1 < digits.length then none
  else if ofDigits radix digits < size then
    some (ofDigits radix digits, cs.drop digits.length)
  else none

/-- `read_given_char`. -/
def readGivenChar (c : Char) : Text → Option Text
  | [] => none
  | d :: cs => if c = d then some cs else none

def readOctet : Text → Option (Nat × Text) := readNumber 10 3 256 false

def Ipv4Addr.ofOctets (a b c d : Nat) : Ipv4Addr :=
  ⟨.ofNat 32 (((a * 256 + b) * 256 + c) * 256 + d)⟩

/-- `read_ipv4_addr`. -/
def readIpv4 (cs : Text) : Option (Ipv4Addr × Text) := do
  let (a, cs) ← readOctet cs
  let (b, cs) ← (readGivenChar '.' cs).bind readOctet
  let (c, cs) ← (readGivenChar '.' cs).bind readOctet
  let (d, cs) ← (readGivenChar '.' cs).bind readOctet
  return (.ofOctets a b c d, cs)

def Ipv6Addr.ofSegments (segments : List Nat) : Ipv6Addr :=
  ⟨.ofNat 128 (segments.foldl (fun n segment => n * 65536 + segment) 0)⟩

/-- `read_separator`, with a colon before every group but the first one. -/
def readColon (first : Bool) (cs : Text) : Option Text :=
  if first then some cs else readGivenChar ':' cs

/-- `read_groups`: at most that many groups, of which an IPv4 address is the last two. -/
def readGroups : Nat → Bool → Text → List Nat × Bool × Text
  | 0, _, cs => ([], false, cs)
  | limit + 1, first, cs =>
    match if limit = 0 then none else (readColon first cs).bind readIpv4 with
    | some (ip, rest) => ([ip.bits.toNat / 65536, ip.bits.toNat % 65536], true, rest)
    | none =>
      match (readColon first cs).bind (readNumber 16 4 65536 true) with
      | some (group, rest) =>
        let (groups, ipv4, rest) := readGroups limit false rest
        (group :: groups, ipv4, rest)
      | none => ([], false, cs)

/-- `read_ipv6_addr`: eight groups, or fewer around `::`. -/
def readIpv6 (cs : Text) : Option (Ipv6Addr × Text) :=
  let (head, ipv4, rest) := readGroups 8 true cs
  if head.length = 8 then some (.ofSegments head, rest)
  else if ipv4 then none
  else do
    let rest ← (readGivenChar ':' rest).bind (readGivenChar ':')
    let (tail, _, rest) := readGroups (8 - (head.length + 1)) true rest
    let zeros := List.replicate (8 - head.length - tail.length) 0
    return (.ofSegments (head ++ zeros ++ tail), rest)

/-- `IpAddr::from_str`. -/
def IpAddr.fromStr (text : Text) : Option IpAddr :=
  match readIpv4 text with
  | some (ip, rest) => if rest = [] then some (.v4 ip) else none
  | none => (readIpv6 text).bind fun (ip, rest) => if rest = [] then some (.v6 ip) else none

example : IpAddr.fromStr "fe80::1:0.0.2.3".toList =
    some (.v6 ⟨0xfe800000000000000000000100000203⟩) := by decide +kernel

example : IpAddr.fromStr "1.2.3.04".toList = none ∧ IpAddr.fromStr "1:2:3:4:5:6:7".toList = none ∧
    IpAddr.fromStr "1:2:3:4::5:6:7:8".toList = none := by decide +kernel

section Addresses

variable {radix maxDigits size : Nat} {zeroPrefix : Bool} {digits rest : Text}

/-- A number is read up to the first character that is no digit. -/
theorem readNumber_digits (hdigits : ∀ c ∈ digits, (toDigit radix c).isSome = true)
    (hrest : ∀ c ∈ rest.head?, (toDigit radix c).isSome = false) :
    readNumber radix maxDigits size zeroPrefix (digits ++ rest) =
      (readNumber radix maxDigits size zeroPrefix digits).map fun r => (r.1, rest) := by
  have hall : digits.takeWhile (fun c => (toDigit radix c).isSome) = digits :=
    List.takeWhile_eq_self_iff.mpr hdigits
  have htake : (digits ++ rest).takeWhile (fun c => (toDigit radix c).isSome) = digits := by
    cases rest with
    | nil => rw [List.append_nil, hall]
    | cons c rest => exact Uri.takeWhile_stop hdigits (hrest c rfl)
  simp only [readNumber, htake, hall, List.drop_left]
  split
  · rfl
  · split
    · rfl
    · split <;> rfl

/-- The digits of an octet. -/
theorem readOctet_digits {n : Nat} (h : n < 256)
    (hrest : ∀ c ∈ rest.head?, (toDigit 10 c).isSome = false) :
    readOctet (Nat.toDigits 10 n ++ rest) = some (n, rest) := by
  have hall : ∀ n < 256, readNumber 10 3 256 false (Nat.toDigits 10 n) = some (n, []) := by
    decide +kernel
  have hdigit : ∀ d < 10, (toDigit 10 (Nat.digitChar d)).isSome = true := by decide
  have hdigits : ∀ c ∈ Nat.toDigits 10 n, (toDigit 10 c).isSome = true := by
    intro c hc
    obtain ⟨d, hd, rfl⟩ := Digits.mem_toDigits (by decide) hc
    exact hdigit d hd
  rw [readOctet, readNumber_digits hdigits hrest, hall n h]
  rfl

theorem ofOctets_octets (ip : Ipv4Addr) :
    Ipv4Addr.ofOctets (ip.bits.extractLsb' 24 8).toNat (ip.bits.extractLsb' 16 8).toNat
      (ip.bits.extractLsb' 8 8).toNat (ip.bits.extractLsb' 0 8).toNat = ip := by
  obtain ⟨bits⟩ := ip
  refine congrArg Ipv4Addr.mk (BitVec.eq_of_toNat_eq ?_)
  have hbits := bits.isLt
  change (BitVec.ofNat 32 ((((bits.extractLsb' 24 8).toNat * 256 +
    (bits.extractLsb' 16 8).toNat) * 256 + (bits.extractLsb' 8 8).toNat) * 256 +
      (bits.extractLsb' 0 8).toNat)).toNat = bits.toNat
  rw [BitVec.toNat_ofNat, BitVec.extractLsb'_toNat, BitVec.extractLsb'_toNat,
    BitVec.extractLsb'_toNat, BitVec.extractLsb'_toNat]
  omega

/-- **The text of an IPv4 address is read back.** -/
theorem fromStr_toText (ip : Ipv4Addr) : IpAddr.fromStr ip.toText.toList = some (.v4 ip) := by
  have hdot : ∀ (cs : Text), ∀ c ∈ ('.' :: cs).head?, (toDigit 10 c).isSome = false := by
    intro cs c hc
    obtain rfl := Option.some.inj hc
    decide
  have hend : ∀ c ∈ ([] : Text).head?, (toDigit 10 c).isSome = false := fun c hc => by cases hc
  have htext : ip.toText.toList = Nat.toDigits 10 ip.octets[0].toNat ++ '.' ::
      (Nat.toDigits 10 ip.octets[1].toNat ++ '.' :: (Nat.toDigits 10 ip.octets[2].toNat ++ '.' ::
        (Nat.toDigits 10 ip.octets[3].toNat ++ []))) := by
    simp [Ipv4Addr.toText, decimal]
  have hread : readIpv4 ip.toText.toList = some (ip, []) := by
    rw [htext, readIpv4, readOctet_digits ip.octets[0].isLt (hdot _)]
    simp only [Option.bind_eq_bind, Option.bind_some, readGivenChar, if_true,
      readOctet_digits ip.octets[1].isLt (hdot _), readOctet_digits ip.octets[2].isLt (hdot _),
      readOctet_digits ip.octets[3].isLt hend, Option.pure_def]
    exact congrArg (fun addr => some (addr, [])) (ofOctets_octets ip)
  simp [IpAddr.fromStr, hread]

end Addresses

/-! ## 2. The request of a client -/

/-- The URI that `SignalingConnection::connect` opens. -/
def connectUri (uri : Text) (info : ClientInfoWithoutId) : Text :=
  uri ++ '?' :: 'd' :: '=' :: (Base64.encode info.toJson.encode).toList

/-- `Uri::query`, empty where there is none. -/
def uriQuery (uri : Text) : Text := ((uri.takeWhile (· ≠ '#')).dropWhile (· ≠ '?')).drop 1

/-- What a request to the server carries: the query of its target, the lines `x-forwarded-for`, and
    the address of its socket. -/
structure WsRequest where
  query : Text
  forwardedFor : List (List UInt8)
  addr : IpAddr

/-- `Query<WsQuery>`: the parameter `d`, which must be there once. -/
def wsQuery (query : Text) : Option (List UInt8) :=
  match (Query.parameters query).filter fun p => p.1 = Query.utf8 ['d'] with
  | [p] => some p.2
  | _ => none

/-- `peer_info` without its new id: base64, UTF-8, JSON. What is no text has characters that are no
    letters of base64. -/
def peerInfo (d : List UInt8) : Option ClientInfoWithoutId := do
  let text ← utf8Text d
  let decoded ← Base64.decode (String.ofList text)
  ClientInfoWithoutId.ofJson (← Json.decode decoded)

/-- `HeaderValue::to_str`: visible characters of ASCII, and tabs. -/
def isVisible (b : UInt8) : Bool := (32 ≤ b && b < 127) || b = 9

def headerText (value : List UInt8) : Option Text :=
  if value.all isVisible then some (value.map fun b => Char.ofNat b.toNat) else none

/-- `str::trim`, of a text of a header. -/
def trim (text : Text) : Text :=
  (text.dropWhile fun c => c = ' ' || c = '\t').rdropWhile fun c => c = ' ' || c = '\t'

/-- `raw_forwarded`: the last component of the first line. -/
def rawForwarded (forwardedFor : List (List UInt8)) : Option IpAddr := do
  let value ← forwardedFor.head?
  let text ← headerText value
  let last ← (text.splitOn ',').getLast?
  IpAddr.fromStr (trim last)

def clientIp (forwardedFor : List (List UInt8)) (addr : IpAddr) : IpAddr :=
  (rawForwarded forwardedFor).getD addr

/-- **`ws_handler`**: the room and the info of a new connection; `none` is a bad request. -/
def wsHandler (request : WsRequest) : Option (String × ClientInfoWithoutId) := do
  let info ← peerInfo (← wsQuery request.query)
  return (getIpGroup (clientIp request.forwardedFor request.addr), info)

/-! ## 3. What the server reads -/

section Request

variable {uri : Text} {info : ClientInfoWithoutId}

/-- A value of letters of base64 stands for itself. -/
theorem decode_base64 (bytes : List UInt8) :
    Query.decode (Base64.encode bytes).toList = Query.utf8 (Base64.encode bytes).toList := by
  have hescape : ∀ v : Text, '%' ∉ v → Query.hasEscape v = false := by
    intro v
    induction v using Query.hasEscape.induct with
    | case1 c d e rest ih =>
        intro hv
        have hc : c ≠ '%' := fun heq => hv (heq ▸ List.mem_cons_self)
        rw [Query.hasEscape, Query.escape, if_neg hc, ih fun hin => hv (List.mem_cons_of_mem c hin)]
        rfl
    | case2 v hv =>
        intro _
        unfold Query.hasEscape
        split
        · exact absurd rfl (hv _ _ _ _)
        · rfl
  exact Query.decode_eq_utf8.mpr ⟨Base64.not_mem_encode (by decide) bytes,
    hescape _ (Base64.not_mem_encode (by decide) bytes)⟩

theorem uriQuery_connectUri (hquestion : '?' ∉ uri) (hsign : '#' ∉ uri) :
    uriQuery (connectUri uri info) = 'd' :: '=' :: (Base64.encode info.toJson.encode).toList := by
  have hencoded : '#' ∉ (Base64.encode info.toJson.encode).toList :=
    Base64.not_mem_encode (by decide) _
  have hall : (connectUri uri info).takeWhile (· ≠ '#') = connectUri uri info := by
    rw [List.takeWhile_eq_self_iff]
    intro c hc
    rw [decide_eq_true_eq]
    rintro rfl
    simp [connectUri, hsign, hencoded] at hc
  have hfront : ∀ c ∈ uri, decide (c ≠ '?') = true := by
    intro c hc
    rw [decide_eq_true_eq]
    rintro rfl
    exact hquestion hc
  rw [uriQuery, hall, connectUri, Uri.dropWhile_stop hfront (by decide)]
  rfl

theorem wsQuery_connectUri (hquestion : '?' ∉ uri) (hsign : '#' ∉ uri) :
    wsQuery (uriQuery (connectUri uri info)) =
      some (Query.utf8 (Base64.encode info.toJson.encode).toList) := by
  have hamp : '&' ∉ 'd' :: '=' :: (Base64.encode info.toJson.encode).toList := by
    simpa using Base64.not_mem_encode (c := '&') (by decide) info.toJson.encode
  have hname := Query.parameter_name (n := ['d']) (by decide)
    (Base64.encode info.toJson.encode).toList
  rw [decode_base64] at hname
  rw [wsQuery, uriQuery_connectUri hquestion hsign,
    Query.parameters_single hamp (List.cons_ne_nil _ _)]
  simp only [List.singleton_append] at hname
  simp [hname]

theorem peerInfo_encode (info : ClientInfoWithoutId) :
    peerInfo (Query.utf8 (Base64.encode info.toJson.encode).toList) = some info := by
  have htext : utf8Text (Query.utf8 (Base64.encode info.toJson.encode).toList) =
      some (Base64.encode info.toJson.encode).toList := Percent.utf8Text_eq_some.mpr rfl
  simp [peerInfo, htext, Base64.decode_encode, ClientInfoWithoutId.ofJson_toJson]

/-- **The info of a client is read as it was sent**, if its URI has no query and no fragment. -/
theorem wsHandler_connectUri (hquestion : '?' ∉ uri) (hsign : '#' ∉ uri)
    (forwardedFor : List (List UInt8)) (addr : IpAddr) :
    wsHandler ⟨uriQuery (connectUri uri info), forwardedFor, addr⟩ =
      some (getIpGroup (clientIp forwardedFor addr), info) := by
  simp [wsHandler, wsQuery_connectUri hquestion hsign, peerInfo_encode]

end Request

/-! ## 4. Behind a proxy -/

/-- **What a client behind a proxy can do to its room.** The proxy appends the address it sees to
    the line the client has sent; the room is that of this address, unless the line of the client
    has a byte that is not visible: then it is the room of the proxy itself. -/
theorem forwarded_group (client reported : List UInt8) (lines : List (List UInt8))
    (ip addr : IpAddr) (hvisible : reported.all isVisible = true) (hcomma : 44 ∉ reported)
    (hread : IpAddr.fromStr (trim (reported.map fun b => Char.ofNat b.toNat)) = some ip) :
    getIpGroup (clientIp ((client ++ 44 :: reported) :: lines) addr) =
      getIpGroup (if client.all isVisible then ip else addr) := by
  have hchar : ∀ b : UInt8, Char.ofNat b.toNat = ',' → b = 44 := by
    have hall : ∀ n < 256, Char.ofNat n = ',' → n = 44 := by decide +kernel
    intro b hb
    exact UInt8.toNat_inj.mp (hall b.toNat b.toNat_lt hb)
  have hnone : ',' ∉ reported.map fun b => Char.ofNat b.toNat := by
    intro hin
    obtain ⟨b, hb, hbyte⟩ := List.mem_map.mp hin
    exact hcomma (hchar b hbyte ▸ hb)
  have hlast : ∀ front : Text, ((front ++ ',' :: reported.map fun b =>
      Char.ofNat b.toNat).splitOn ',').getLast? =
        some (reported.map fun b => Char.ofNat b.toNat) := by
    intro front
    rw [List.splitOn_append_cons_self, List.splitOn_eq_singleton hnone, List.getLast?_concat]
  congr 1
  by_cases hclient : client.all isVisible = true
  · have hline : (client ++ 44 :: reported).all isVisible = true := by
      rw [List.all_append, List.all_cons, hclient, hvisible]
      rfl
    have htext : headerText (client ++ 44 :: reported) = some ((client.map fun b =>
        Char.ofNat b.toNat) ++ ',' :: reported.map fun b => Char.ofNat b.toNat) := by
      rw [headerText, if_pos hline, List.map_append, List.map_cons]
      rfl
    simp [clientIp, rawForwarded, htext, hlast, hread, hclient]
  · have hline : ¬ (client ++ 44 :: reported).all isVisible = true := by
      rw [List.all_append]
      simp [hclient]
    have htext : headerText (client ++ 44 :: reported) = none := if_neg hline
    simp [clientIp, rawForwarded, htext, hclient]

theorem forwarded_group_reported :
    getIpGroup (clientIp [[49, 48, 46, 49, 44, 32, 52, 46, 51, 46, 50, 46, 49]]
      (.v4 ⟨0x7f000001⟩)) = "4.3.2.1" := by
  have hgroup := forwarded_group [49, 48, 46, 49] [32, 52, 46, 51, 46, 50, 46, 49] []
    (.v4 ⟨0x04030201⟩) (.v4 ⟨0x7f000001⟩) (by decide) (by decide) (by decide +kernel)
  rw [if_pos (by decide)] at hgroup
  exact hgroup.trans (by decide +kernel)

/-! ## 5. What the client reads -/

section Hello

variable (u : UuidText)

/-- `serde_json::from_str::<WsServerMessage>`. -/
def readMessage (text : Text) : Option WsServerMessage :=
  (parse text).bind (WsServerMessage.ofJson u)

/-- The texts one after another, with room for `room` more messages in `receive_tx`: the client of
    the first `Hello`. A text that is no message is only logged; any other message goes to
    `receive_tx`, which waits when it is full. -/
def readHello : Nat → List Text → Option ClientInfo
  | _, [] => none
  | room, text :: texts =>
    match readMessage u text, room with
    | none, room => readHello room texts
    | some (.hello client _), _ => some client
    | some _, 0 => none
    | some _, room + 1 => readHello room texts

/-- **What `SignalingConnection::connect` waits for**; its `receive_tx` has the capacity 1, and nobody
    reads it before `connect` returns. -/
def awaitHello (texts : List Text) : Option ClientInfo := readHello u 1 texts

/-- The texts on the socket of a connection, those the server has written so far. -/
def socketTexts (s : State) (p : Uuid) : List Text :=
  (if (s.handler p).map Handler.phase = some .refused then ["Limit reached".toList] else []) ++
    (s.taken p).map fun m => (m.toJson u).print

end Hello

def WsServerMessage.isHello : WsServerMessage → Bool
  | .hello _ _ => true
  | _ => false

/-- The messages before the first `Hello`. -/
def beforeHello (ms : List WsServerMessage) : List WsServerMessage :=
  ms.takeWhile fun m => !m.isHello

/-- New ids have 128 bits. -/
def sizedIds (_ : State) : Event → Prop
  | .task _ p (.connect _) => p.Sized
  | _ => True

instance (s : State) : (e : Event) → Decidable (sizedIds s e)
  | .task _ p (.connect _) => inferInstanceAs (Decidable (p < 2 ^ 128))
  | .task _ _ (.sendJoin _) | .task _ _ .sendHello | .task _ _ (.receive _)
  | .task _ _ .handleMessage | .task _ _ (.sendUpdate _) | .task _ _ .forward
  | .task _ _ .sendError | .task _ _ .take | .task _ _ .disconnect | .task _ _ .remove
  | .task _ _ (.sendLeft _) | .clearCounts => .isTrue trivial

/-- Every id in the phase has 128 bits, and only offers and answers are forwarded. -/
def Phase.Sized : Phase → Prop
  | .joining _ peers => ∀ peer ∈ peers, peer.Sized
  | .running (.updating _ peer) => peer.Sized
  | .running (.forwarding _ msg) => msg.Sized ∧ msg.sdpPeer ≠ none
  | _ => True

/-- **Whom the server greets**: a `Hello` names the connection it goes to, and that one has the
    info and the room of its request. -/
structure Greeted (es : List Event) (s : State) : Prop where
  sized : ∀ p h, s.handler p = some h → p.Sized ∧ h.phase.Sized
  joined : ∀ g p info, .task g p (.connect info) ∈ es →
    ∃ h, s.handler p = some h ∧ h.group = g ∧ h.peer = ClientInfo.from info p
  placed : ∀ c, ∀ m ∈ s.placed c, m.Sized ∧
    ∀ client peers, m = .hello client peers → ∃ h, s.handler c = some h ∧ h.peer = client

section Greetings

variable {l : Limits} {s t s1 : State} {e : Event} {es : List Event} {c p : Uuid}
  {m : WsServerMessage}

/-- One connection goes on: its phase has sized ids, and what it sends is fit to be sent. -/
theorem Greeted.move (hG : Greeted es s) {h : Handler} {ph : Phase} {g : String} {a : Action}
    (hp : s.handler p = some h)
    (ht : t.handler = Function.update s.handler p (some { h with phase := ph })) (hph : ph.Sized)
    (hplaced : t.placed = s.placed ∨ ∃ c m,
      t.placed = Function.update s.placed c (s.placed c ++ [m]) ∧ m.Sized ∧
        ∀ client peers, m = .hello client peers → c = p ∧ client = h.peer)
    (ha : ∀ info, a ≠ .connect info) : Greeted (es ++ [.task g p a]) t := by
  have hself : t.handler p = some { h with phase := ph } := by rw [ht, Function.update_self]
  have hkeeps : ∀ q k, s.handler q = some k → ∃ k', t.handler q = some k' ∧ k'.group = k.group ∧
      k'.peer = k.peer := by
    intro q k hq
    by_cases hqp : q = p
    · subst hqp
      obtain rfl := Option.some.inj (hq.symm.trans hp)
      exact ⟨_, hself, rfl, rfl⟩
    · exact ⟨k, by rw [ht, Function.update_of_ne hqp, hq], rfl, rfl⟩
  refine ⟨fun q k hq => ?_, fun g' q info hmem => ?_, fun d m hm => ?_⟩
  · by_cases hqp : q = p
    · subst hqp
      obtain rfl := Option.some.inj (hself.symm.trans hq)
      exact ⟨(hG.sized q h hp).1, hph⟩
    · rw [ht, Function.update_of_ne hqp] at hq
      exact hG.sized q k hq
  · rcases List.mem_append.mp hmem with hmem | hmem
    · obtain ⟨k, hq, hgroup, hpeer⟩ := hG.joined g' q info hmem
      obtain ⟨k', hk', hgroup', hpeer'⟩ := hkeeps q k hq
      exact ⟨k', hk', hgroup'.trans hgroup, hpeer'.trans hpeer⟩
    · have hevent := List.mem_singleton.mp hmem
      injection hevent with _ _ haction
      exact absurd haction.symm (ha info)
  · have hold : ∀ m ∈ s.placed d, m.Sized ∧ ∀ client peers, m = .hello client peers →
        ∃ h, t.handler d = some h ∧ h.peer = client := by
      intro m hm
      obtain ⟨hsized, hhello⟩ := hG.placed d m hm
      refine ⟨hsized, fun client peers heq => ?_⟩
      obtain ⟨k, hk, rfl⟩ := hhello client peers heq
      obtain ⟨k', hk', -, hpeer'⟩ := hkeeps d k hk
      exact ⟨k', hk', hpeer'⟩
    rcases hplaced with hsame | ⟨c, m', hnew, hsized, hhello⟩
    · exact hold m (hsame ▸ hm)
    · rw [hnew, Function.update_apply] at hm
      split at hm
      · rename_i hdc
        subst hdc
        rcases List.mem_append.mp hm with hm | hm
        · exact hold m hm
        · obtain rfl := List.mem_singleton.mp hm
          refine ⟨hsized, fun client peers heq => ?_⟩
          obtain ⟨rfl, rfl⟩ := hhello client peers heq
          exact ⟨_, hself, rfl⟩
      · exact hold m hm

theorem Greeted.new (hG : Greeted es s) {g : String} {info : ClientInfoWithoutId}
    {ph : Phase} (hp : s.handler p = none)
    (ht : t.handler = Function.update s.handler p (some ⟨g, ClientInfo.from info p, ph⟩))
    (hplaced : t.placed = s.placed) (hid : p.Sized) (hph : ph.Sized) :
    Greeted (es ++ [.task g p (.connect info)]) t := by
  have hself : t.handler p = some ⟨g, ClientInfo.from info p, ph⟩ := by
    rw [ht, Function.update_self]
  have hkeeps : ∀ q k, s.handler q = some k → t.handler q = some k := by
    intro q k hq
    have hqp : q ≠ p := by
      rintro rfl
      rw [hp] at hq
      cases hq
    rw [ht, Function.update_of_ne hqp, hq]
  refine ⟨fun q k hq => ?_, fun g' q info' hmem => ?_, fun d m hm => ?_⟩
  · by_cases hqp : q = p
    · subst hqp
      obtain rfl := Option.some.inj (hself.symm.trans hq)
      exact ⟨hid, hph⟩
    · rw [ht, Function.update_of_ne hqp] at hq
      exact hG.sized q k hq
  · rcases List.mem_append.mp hmem with hmem | hmem
    · obtain ⟨k, hq, hrest⟩ := hG.joined g' q info' hmem
      exact ⟨k, hkeeps q k hq, hrest⟩
    · obtain ⟨rfl, rfl, hinfo⟩ := Event.task.inj (List.mem_singleton.mp hmem)
      obtain rfl := Action.connect.inj hinfo
      exact ⟨_, hself, rfl, rfl⟩
  · rw [hplaced] at hm
    obtain ⟨hsized, hhello⟩ := hG.placed d m hm
    refine ⟨hsized, fun client peers heq => ?_⟩
    obtain ⟨k, hk, hpeer⟩ := hhello client peers heq
    exact ⟨k, hkeeps d k hk, hpeer⟩

/-- The members a `Hello` lists have sized ids. -/
theorem Greeted.infos_sized (hG : Greeted es s) (hT : Tables s) (g : String) :
    ∀ peer ∈ (s.members g).infos, peer.Sized := by
  intro peer hpeer
  obtain ⟨⟨k, cs⟩, hmem, rfl⟩ := List.mem_map.mp hpeer
  obtain ⟨-, h, hh, -⟩ := hT.entry g k cs hmem
  exact (hG.sized k h hh).1

theorem Greeted.peer_sized (hG : Greeted es s) (hT : Tables s) {h : Handler}
    (hp : s.handler p = some h) : h.peer.Sized := by
  rw [ClientInfo.Sized, hT.peerId p h hp]
  exact (hG.sized p h hp).1

/-- **Every step keeps the greetings.** -/
theorem greeted_step (hT : Tables s) (hG : Greeted es s) (hg : sizedIds s e)
    (hs : Step l s e t) : Greeted (es ++ [e]) t := by
  have hsend : ∀ {q : Uuid} {h : Handler} {ph : Phase} {g : String} {a : Action} {d : Uuid}
      {m : WsServerMessage} {s1 : State}, s.handler q = some h → s.send d m = some s1 →
      ph.Sized → m.Sized →
      (∀ client peers, m = .hello client peers → d = q ∧ client = h.peer) →
      (∀ info, a ≠ .connect info) → Greeted (es ++ [.task g q a]) (s1.setPhase q h ph) := by
    intro q h ph g a d m s1 hq hs1 hph hm hhello ha
    refine hG.move hq (send_setPhase hs1 q h ph) hph ?_ ha
    rcases send_placed hs1 with hsame | ⟨_, hnew⟩
    · exact .inl hsame
    · exact .inr ⟨d, m, hnew, hm, hhello⟩
  have hafter : ∀ peersTx peer, ClientInfo.Sized peer →
      (Phase.running (.afterUpdate peersTx peer)).Sized := by
    intro peersTx peer hpeer
    unfold RecvTask.afterUpdate
    split
    · trivial
    · exact hpeer
  cases hs with
  | clear =>
      refine ⟨hG.sized, fun g q info hmem => ?_, hG.placed⟩
      rcases List.mem_append.mp hmem with hmem | hmem
      · exact hG.joined g q info hmem
      · cases List.mem_singleton.mp hmem
  | refusedFull g q info hq hfull => exact hG.new hq rfl rfl hg trivial
  | refusedCount g q info hq hroom hcount => exact hG.new hq rfl rfl hg trivial
  | admitted g q info hq hroom hcount => exact hG.new hq rfl rfl hg (hG.infos_sized hT g)
  | join q h peersTx peers d s1 hq hph hd hs1 =>
      have hphase := (hG.sized q h hq).2
      rw [hph] at hphase
      exact hsend hq hs1 hphase (hG.peer_sized hT hq) (fun _ _ heq => by cases heq)
        fun _ heq => by cases heq
  | hello q h peers s1 hq hph hs1 =>
      have hphase := (hG.sized q h hq).2
      rw [hph] at hphase
      refine hsend hq hs1 trivial ⟨hG.peer_sized hT hq, hphase⟩ (fun client peers' heq => ?_)
        fun _ heq => by cases heq
      injection heq with hclient _
      exact ⟨rfl, hclient.symm⟩
  | tooMany q h msg hq hph hcount => exact hG.move hq rfl trivial (.inl rfl) fun _ heq => by cases heq
  | counted q h msg hq hph hcount => exact hG.move hq rfl trivial (.inl rfl) fun _ heq => by cases heq
  | update q h info m hq hph hm hreg =>
      exact hG.move hq rfl (hafter _ _ (hG.sized q h hq).1) (.inl rfl) fun _ heq => by cases heq
  | updateLost q h info hq hph hreg =>
      exact hG.move hq rfl trivial (.inl rfl) fun _ heq => by cases heq
  | sdp q h msg target tx out hq hph hmsg htx =>
      have hpeer := hG.peer_sized hT hq
      have hout : out.Sized ∧ out.sdpPeer ≠ none := by
        cases msg with
        | update info => cases hmsg
        | offer sdp | answer sdp =>
            obtain ⟨-, rfl⟩ := Prod.mk.inj (Option.some.inj hmsg)
            exact ⟨hpeer, Option.some_ne_none _⟩
      exact hG.move hq rfl hout (.inl rfl) fun _ heq => by cases heq
  | sdpLost q h msg target out hq hph hmsg htx =>
      exact hG.move hq rfl trivial (.inl rfl) fun _ heq => by cases heq
  | sendUpdate q h peersTx peer d s1 hq hph hd hs1 =>
      have hphase := (hG.sized q h hq).2
      rw [hph] at hphase
      exact hsend hq hs1 (hafter _ _ hphase) hphase (fun _ _ heq => by cases heq)
        fun _ heq => by cases heq
  | forward q h tx msg s1 hq hph hs1 =>
      have hphase := (hG.sized q h hq).2
      rw [hph] at hphase
      obtain ⟨hsized, hsdp⟩ := hphase
      refine hsend hq hs1 trivial hsized (fun client peers heq => ?_) fun _ heq => by cases heq
      rw [heq] at hsdp
      exact absurd rfl hsdp
  | sendError q h s1 hq hph hs1 =>
      refine hsend hq hs1 trivial ?_ (fun _ _ heq => by cases heq) fun _ heq => by cases heq
      change 429 < UInt16.size
      decide
  | take q h r m rest hq hph hqu =>
      have hplaced := take_placed hqu
      refine ⟨hG.sized, fun g q' info hmem => ?_, fun d m' hm' => hG.placed d m' (hplaced ▸ hm')⟩
      rcases List.mem_append.mp hmem with hmem | hmem
      · exact hG.joined g q' info hmem
      · cases List.mem_singleton.mp hmem
  | disconnect q h r hq hph => exact hG.move hq rfl trivial (.inl rfl) fun _ heq => by cases heq
  | removeLast q h hq hph hm => exact hG.move hq rfl trivial (.inl rfl) fun _ heq => by cases heq
  | remove q h hq hph hm => exact hG.move hq rfl trivial (.inl rfl) fun _ heq => by cases heq
  | sendLeft q h remainingTx d s1 hq hph hd hs1 =>
      have hphase : (Phase.afterLeft (remainingTx.erase d)).Sized := by
        unfold Phase.afterLeft
        split <;> trivial
      exact hsend hq hs1 hphase (hG.sized q h hq).1 (fun _ _ heq => by cases heq)
        fun _ heq => by cases heq

theorem greeted_run (h : (server l).Run sizedIds State.empty es s) : Tables s ∧ Greeted es s := by
  refine h.traceInvariant (I := fun es s => Tables s ∧ Greeted es s) ⟨tables_empty, ?_⟩ ?_
  · constructor <;> simp [State.empty, State.placed]
  · intro es t e u ht hg hs
    obtain ⟨hT, hG⟩ := ht
    exact ⟨tables_step hT (step_inv hs), greeted_step hT hG hg (step_inv hs)⟩

theorem readMessage_print (u : UuidText) (hm : m.Sized) :
    readMessage u (m.toJson u).print = some m := by
  rw [readMessage, parse_print, Option.bind_some, WsServerMessage.ofJson_toJson hm]

/-- What is read out of texts whose hellos name one client. -/
theorem readHello_cases {u : UuidText} {client : ClientInfo} (texts : List Text) (room : Nat)
    (h : ∀ text ∈ texts, ∀ x peers, readMessage u text = some (.hello x peers) → x = client) :
    readHello u room texts = none ∨ readHello u room texts = some client := by
  fun_induction readHello u room texts with
  | case1 => exact .inl rfl
  | case2 text texts room hnone ih => exact ih fun t ht => h t (List.mem_cons_of_mem _ ht)
  | case3 room text texts x peers hhello =>
      rw [h text List.mem_cons_self x peers hhello]
      exact .inr rfl
  | case4 => exact .inl rfl
  | case5 text texts m _ room _ ih => exact ih fun t ht => h t (List.mem_cons_of_mem _ ht)

/-- **The `Hello` is reached** exactly if there is room for what comes before it. -/
theorem readHello_iff (u : UuidText) {client : ClientInfo} (ms : List WsServerMessage)
    (hsized : ∀ m ∈ ms, m.Sized) (hclient : ∀ x peers, .hello x peers ∈ ms → x = client)
    (hhello : ∃ x peers, .hello x peers ∈ ms) (room : Nat) :
    readHello u room (ms.map fun m => (m.toJson u).print) = some client ↔
      (beforeHello ms).length ≤ room := by
  induction ms generalizing room with
  | nil =>
      obtain ⟨x, peers, hmem⟩ := hhello
      cases hmem
  | cons m ms ih =>
      have hread := readMessage_print u (hsized m List.mem_cons_self)
      rw [List.map_cons]
      cases hm : m.isHello with
      | true =>
          obtain ⟨x, peers, rfl⟩ : ∃ x peers, m = .hello x peers := by
            cases m with
            | hello x peers => exact ⟨x, peers, rfl⟩
            | _ => cases hm
          obtain rfl := hclient x peers List.mem_cons_self
          simp [readHello, hread, beforeHello, hm]
      | false =>
          have hrest : ∃ x peers, .hello x peers ∈ ms := by
            obtain ⟨x, peers, hmem⟩ := hhello
            refine ⟨x, peers, (List.mem_cons.mp hmem).resolve_left fun heq => ?_⟩
            rw [← heq] at hm
            cases hm
          have ih := ih (fun m hm => hsized m (List.mem_cons_of_mem _ hm))
            (fun x peers hmem => hclient x peers (List.mem_cons_of_mem _ hmem)) hrest
          have hbefore : beforeHello (m :: ms) = m :: beforeHello ms := by simp [beforeHello, hm]
          rw [hbefore, List.length_cons]
          cases room with
          | zero =>
              refine iff_of_false ?_ (Nat.not_succ_le_zero _)
              cases m with
              | hello x peers => cases hm
              | _ => simp [readHello, hread]
          | succ room =>
              rw [Nat.add_le_add_iff_right, ← ih room]
              cases m with
              | hello x peers => cases hm
              | _ => simp [readHello, hread]

/-- The texts on the socket of a connection, as the client reads them: a refusal is no message. -/
theorem readHello_socketTexts (u : UuidText) (room : Nat) :
    readHello u room (socketTexts u s p) =
      readHello u room ((s.taken p).map fun m => (m.toJson u).print) := by
  unfold socketTexts
  split
  · rfl
  · rfl

/-- What the hellos of a connection name. -/
theorem Greeted.hello_eq (hG : Greeted es s) {h : Handler} (hp : s.handler p = some h)
    {client : ClientInfo} {peers : List ClientInfo} (hmem : .hello client peers ∈ s.taken p) :
    client = h.peer := by
  obtain ⟨-, hhello⟩ := hG.placed p _ (List.mem_append_left _ hmem)
  obtain ⟨k, hk, rfl⟩ := hhello client peers rfl
  rw [Option.some.inj (hk.symm.trans hp)]

/-- Every text on the socket that names a client names that of the connection. -/
theorem Greeted.readMessage_eq (hG : Greeted es s) (u : UuidText) {h : Handler}
    (hp : s.handler p = some h) : ∀ text ∈ socketTexts u s p, ∀ x peers,
      readMessage u text = some (.hello x peers) → x = h.peer := by
  intro text htext x peers hx
  rcases List.mem_append.mp htext with htext | htext
  · -- the text of the refusal
    split at htext
    · rw [List.mem_singleton.mp htext] at hx
      cases hx
    · cases htext
  · obtain ⟨m, hm, rfl⟩ := List.mem_map.mp htext
    rw [readMessage_print u (hG.placed p m (List.mem_append_left _ hm)).1] at hx
    obtain rfl := Option.some.inj hx
    exact hG.hello_eq hp hm

/-- Two clients of one room, of which the second one has read its `Hello`. -/
def greetedRun : List Event :=
  [.task "1.2.3.4" 0 (.connect demoInfo), .task "1.2.3.4" 0 .sendHello,
    .task "1.2.3.4" 1 (.connect renamedInfo), .task "1.2.3.4" 1 (.sendJoin 0),
    .task "1.2.3.4" 1 .sendHello, .task "1.2.3.4" 1 .take]

/-- Two more join before the second one has its `Hello`. -/
def joinedFirstRun : List Event :=
  [.task "1.2.3.4" 0 (.connect demoInfo), .task "1.2.3.4" 0 .sendHello,
    .task "1.2.3.4" 1 (.connect renamedInfo), .task "1.2.3.4" 1 (.sendJoin 0),
    .task "1.2.3.4" 2 (.connect demoInfo), .task "1.2.3.4" 2 (.sendJoin 0),
    .task "1.2.3.4" 2 (.sendJoin 1), .task "1.2.3.4" 3 (.connect demoInfo),
    .task "1.2.3.4" 3 (.sendJoin 0), .task "1.2.3.4" 3 (.sendJoin 1), .task "1.2.3.4" 1 .sendHello,
    .task "1.2.3.4" 1 .take, .task "1.2.3.4" 1 .take, .task "1.2.3.4" 1 .take]

end Greetings

end LocalSend.Signaling
