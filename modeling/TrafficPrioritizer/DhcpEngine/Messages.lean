import TrafficPrioritizer.DhcpEngine.OptionScan

/-! The messages of a client: the self test's DISCOVER with any hardware address, and a
REQUEST in the same frame. -/

namespace Hpgtp
open ByteBuffer OptionArea

def makeDhcp (mac : Mac) (options : List UInt8) : DhcpMessage :=
  let opt := 42 + sizeofDhcpHeader + options.length
  .ofFrame <|
    List.replicate 12 0 ++ bytes16 (htons 0x0800) ++
    ([0x45, 0] ++ bytes16 (htons (UInt16.ofNat (opt - 14))) ++ [0, 0, 0, 0, 0, 17, 0, 0] ++
      bytes32 0 ++ bytes32 0xFFFFFFFF) ++
    (bytes16 (htons 68) ++ bytes16 (htons 67) ++ bytes16 (htons (UInt16.ofNat (opt - 34))) ++
      bytes16 0) ++
    ([1, 1, 6, 0] ++ bytes32 (htonl 0xDEADBEEF) ++ List.replicate 20 0 ++ mac.toList ++
      List.replicate 202 0 ++ bytes32 (htonl 0x63825363)) ++ options

def makeDhcpDiscover (mac : Mac) : DhcpMessage := makeDhcp mac [53, 1, 1, 255]

def makeDhcpRequest (mac : Mac) (requested : IPv4Net) : DhcpMessage :=
  makeDhcp mac ([53, 1, 3] ++ ([50, 4] ++ bytes32 requested.raw) ++ [255])

def selfTestMac : Mac := #v[0xAA, 0xBB, 0xCC, 0xDD, 0xEE, 0xFF]

def otherMac : Mac := #v[2, 0, 0, 0, 0, 7]

theorem DhcpMessage.decode_of_plain {msg : DhcpMessage} {b : List UInt8} (hb : msg.data = b)
    (hlen : 282 ≤ b.length) (heth : load16 b 12 = htons 0x0800) (hihl : load8 b 14 = 0x45)
    (hproto : load8 b 23 = 17) (hport : load16 b 36 = htons 67) (hop : load8 b 42 = 1)
    (hmagic : load32 b 278 = htonl 0x63825363) :
    msg.decode = some {
      msgType := (scanOptions b (b.length - 282) 282 {}).msgType
      requestedIp := ⟨(scanOptions b (b.length - 282) 282 {}).rawRequestedIp⟩
      ciaddr := ⟨load32 b 54⟩
      xid := load32 b 46
      chaddr := Vector.ofFn fun i => load8 b (70 + i) } := by
  subst hb
  have hudp : 34 + l4HeaderSize 17 ≤ msg.data.length := le_trans (by decide) hlen
  obtain ⟨-, hipv4, hl4p, -, hoff, hl4⟩ :=
    ParsedPacket.parse_of_plain (.inl rfl) hudp heth hihl hproto
  have hdport : ntohs (load16 msg.data 36) = 67 := by rw [hport, ntohs_htons]
  have hcookie : ntohl (load32 msg.data 278) = 0x63825363 := by rw [hmagic]; decide
  simp [decode, ParsedPacket.isValidIpv4, ParsedPacket.udp, hipv4, hl4p, hl4, hoff, hdport,
    DhcpHeader.op, DhcpHeader.magicCookie, hcookie, hop, sizeofUDPHeader,
    sizeofDhcpHeader]
  exact ⟨hlen, rfl, rfl, rfl⟩

theorem length_makeDhcp (mac : Mac) (options : List UInt8) (h : options.length ≤ 230) :
    (makeDhcp mac options).data.length = 282 + options.length := by
  simp only [makeDhcp, DhcpMessage.ofFrame, bytes16, bytes32, List.length_take,
    List.length_append, List.length_replicate, Vector.length_toList, List.length_cons,
    List.length_nil]
  omega

theorem drop_makeDhcp (mac : Mac) (options : List UInt8) (h : options.length ≤ 230) :
    (makeDhcp mac options).data.drop 282 = options := by
  simp only [makeDhcp, DhcpMessage.ofFrame]
  rw [List.take_of_length_le, List.drop_left']
  · simp only [bytes16, bytes32, List.length_append, List.length_replicate, Vector.length_toList,
      List.length_cons, List.length_nil]
  · simp only [bytes16, bytes32, List.length_append, List.length_replicate, Vector.length_toList,
      List.length_cons, List.length_nil]
    omega

theorem makeDhcp_fields (mac : Mac) (options : List UInt8) (h : options.length ≤ 230) :
    let b := (makeDhcp mac options).data
    load16 b 12 = htons 0x0800 ∧ load8 b 14 = 0x45 ∧ load8 b 23 = 17 ∧ load16 b 36 = htons 67 ∧
      load8 b 42 = 1 ∧ load32 b 54 = 0 ∧ load32 b 278 = htonl 0x63825363 ∧
      ∀ i (hi : i < 6), load8 b (70 + i) = mac[i] := by
  intro b
  have hframe : b = _ := List.take_of_length_le (by
    simp only [bytes16, bytes32, List.length_append, List.length_replicate, Vector.length_toList,
      List.length_cons, List.length_nil]
    omega)
  simp only [List.append_assoc] at hframe
  have hdrop12 := drop_skip (b := b) (o := 0) hframe (n := 12) (List.length_replicate ..)
  have hdrop14 := drop_skip hdrop12 (n := 2) rfl
  have hdrop70 : b.drop (14 + 56) = mac.toList ++
      (List.replicate 202 0 ++ (bytes32 (htonl 0x63825363) ++ options)) := by
    rw [← List.drop_drop, hdrop14]
    rfl
  have hdrop278 := drop_skip (drop_skip hdrop70 (n := 6) (Vector.length_toList ..))
    (n := 202) (List.length_replicate ..)
  have hbyte (k : ℕ) := load8_drop b 14 k
  have hword (k : ℕ) := load16_drop b 14 k
  have hlong := load32_drop b 14 40
  rw [hdrop14] at hbyte hword hlong
  refine ⟨?_, (hbyte 0).symm, (hbyte 9).symm, (hword 22).symm.trans (load16_bytes16 (htons 67) []),
    (hbyte 28).symm, hlong.symm.trans (load32_bytes32 0 []), ?_, fun i hi => ?_⟩
  · show load16 b (0 + 12 + 0) = _
    rw [← load16_drop, hdrop12]
    exact load16_bytes16 ..
  · show load32 b (14 + 56 + 6 + 202 + 0) = _
    rw [← load32_drop, hdrop278]
    exact load32_bytes32 ..
  · have hlt : i < mac.toList.length := by rwa [Vector.length_toList]
    show load8 b (14 + 56 + i) = _
    rw [← load8_drop, hdrop70, load8_append_left hlt, Vector.getElem_toList]

theorem decode_makeDhcp (mac : Mac) (options : List UInt8) (h : options.length ≤ 230) :
    ∃ r, (makeDhcp mac options).decode = some r ∧ r.mac = mac ∧ r.ciaddr = {} ∧
      r.msgType = (scanOptions (makeDhcp mac options).data options.length 282 {}).msgType ∧
      r.requestedIp =
        ⟨(scanOptions (makeDhcp mac options).data options.length 282 {}).rawRequestedIp⟩ := by
  have hlen := length_makeDhcp mac options h
  have hfuel : (makeDhcp mac options).data.length - 282 = options.length := by omega
  obtain ⟨heth, hihl, hproto, hport, hop, hciaddr, hmagic, hchaddr⟩ := makeDhcp_fields mac options h
  rw [← hfuel]
  generalize makeDhcp mac options = msg at *
  have hdecode := DhcpMessage.decode_of_plain rfl (by omega) heth hihl hproto hport hop hmagic
  refine ⟨_, hdecode, Vector.ext fun i hi => ?_, ?_, ?_, ?_⟩
  · rw [← hchaddr i hi, DhcpRequest.mac, Vector.getElem_ofFn]
    exact Vector.getElem_ofFn ..
  · simp only [hciaddr]
  · simp only
  · simp only

theorem decode_makeDhcp_encode (mac : Mac) {items : List (Item 0 255)}
    (h : (encode items).length < 230) :
    ∃ r, (makeDhcp mac (encode items ++ [255])).decode = some r ∧ r.mac = mac ∧ r.ciaddr = {} ∧
      r.msgType = (lastData 53 1 (contents items)).elim 0 (load8 · 0) ∧
      r.requestedIp.raw = (lastData 50 4 (contents items)).elim 0 (load32 · 0) := by
  have hlen : (encode items ++ [255]).length ≤ 230 := by
    rw [List.length_append, List.length_singleton]
    omega
  obtain ⟨r, hdec, hmac, hciaddr, htype, hip⟩ := decode_makeDhcp mac _ hlen
  have hitems := length_le_encode items
  rw [scanOptions_of_drop (drop_makeDhcp mac _ hlen) (by rw [List.length_append]; omega)]
    at htype hip
  exact ⟨r, hdec, hmac, hciaddr, htype, congrArg IPv4Net.raw hip⟩

def messageType (type : UInt8) : Item 0 255 :=
  .entry ⟨53, [type], by decide, by decide, show 1 < 256 by decide⟩

def requestedAddress (ip : IPv4Net) : Item 0 255 :=
  .entry ⟨50, bytes32 ip.raw, by decide, by decide, show 4 < 256 by decide⟩

theorem decode_makeDhcpDiscover (mac : Mac) :
    ∃ r, (makeDhcpDiscover mac).decode = some r ∧ r.msgType = 1 ∧ r.mac = mac := by
  obtain ⟨r, hdec, hmac, -, htype, -⟩ :=
    decode_makeDhcp_encode mac (show (encode [messageType 1]).length < 230 by decide)
  exact ⟨r, hdec, htype, hmac⟩

theorem decode_makeDhcpRequest (mac : Mac) (requested : IPv4Net) :
    ∃ r, (makeDhcpRequest mac requested).decode = some r ∧ r.msgType = 3 ∧ r.mac = mac ∧
      r.requested = requested := by
  have hlen : (encode [messageType 3, requestedAddress requested]).length < 230 :=
    show 9 < 230 by decide
  obtain ⟨r, hdec, hmac, hciaddr, htype, hip⟩ := decode_makeDhcp_encode mac hlen
  have hraw : r.requestedIp.raw = requested.raw := hip.trans (load32_bytes32 requested.raw [])
  refine ⟨r, hdec, htype, hmac, ?_⟩
  rw [DhcpRequest.requested, hraw, hciaddr]
  split_ifs with hzero
  · exact congrArg IPv4Net.mk hzero.symm
  · exact congrArg IPv4Net.mk hraw

end Hpgtp
