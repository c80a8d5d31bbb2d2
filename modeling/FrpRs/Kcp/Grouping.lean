import FrpRs.Kcp.Session

/-!
# The packets of FEC groups

A sender emits its packets group by group: `d` data packets and then `p` parity
packets.  So the packet at position `j` of everything it has emitted is packet
`j % (d + p)` of group `j / (d + p)`, and its sequence number is `j` modulo `2^32`.
The receiver groups by sequence number.  The two agree until the counter wraps, and
after that exactly when `d + p` divides `2^32`.
-/

namespace FrpRs
namespace KcpSession

open List Bytes

/-!
## Slots
-/

/-- How many packets are out after `n` datagrams. -/
def packetCount (d p n : Nat) : Nat :=
  n + p * (n / d)

/-- The datagrams of group `g`. -/
def groupPayloads (d : Nat) (ds : List (List Byte)) (g : Nat) : List (List Byte) :=
  (ds.drop (d * g)).take d

def longestRow (payloads : List (List Byte)) : Nat :=
  (payloads.map fun x => (rsRow x).length).foldl max 0

def paddedRows (payloads : List (List Byte)) : List (List Byte) :=
  payloads.map fun x => Fec.zeroExtend (longestRow payloads) (rsRow x)

def slotShard (fec : Fec) (d p : Nat) (ds : List (List Byte)) (j : Nat) : List Byte :=
  if j % (d + p) < d then rsRow (ds.getD (d * (j / (d + p)) + j % (d + p)) [])
  else
    let payloads := groupPayloads d ds (j / (d + p))
    fec.codeRow (paddedRows payloads) (longestRow payloads) (j % (d + p))

def slotType (d p j : Nat) : UInt16 :=
  if j % (d + p) < d then typeData else typeParity

/-- Packet `j` of a sender that was given the datagrams `ds`. -/
def slotPacket (fec : Fec) (d p : Nat) (ds : List (List Byte)) (j : Nat) : List Byte :=
  wirePacket (UInt32.ofNat j) (slotType d p j) (slotShard fec d p ds j)

theorem slot_div {total i : Nat} (g : Nat) (hi : i < total) : (total * g + i) / total = g := by
  rw [Nat.mul_add_div (by omega), Nat.div_eq_of_lt hi, Nat.add_zero]

theorem slot_mod {total i : Nat} (g : Nat) (hi : i < total) : (total * g + i) % total = i := by
  rw [Nat.mul_add_mod, Nat.mod_eq_of_lt hi]

theorem packetCount_eq (d p n : Nat) :
    packetCount d p n = (d + p) * (n / d) + n % d := by
  have hn := Nat.div_add_mod n d
  unfold packetCount
  rw [Nat.add_mul]
  omega

theorem slot_group_le {d p n j : Nat} (hd : 1 ≤ d) (hj : j < packetCount d p n) :
    j / (d + p) ≤ n / d := by
  have hr := Nat.mod_lt n (show 0 < d by omega)
  rw [packetCount_eq] at hj
  apply Nat.le_of_lt_succ
  apply Nat.div_lt_of_lt_mul
  rw [Nat.mul_succ]
  omega

theorem slot_covered {d p n j : Nat} (hd : 1 ≤ d) (hj : j < packetCount d p n) :
    d * (j / (d + p)) + min (j % (d + p) + 1) d ≤ n := by
  have hle := slot_group_le hd hj
  have hjeq := Nat.div_add_mod j (d + p)
  have hn := Nat.div_add_mod n d
  rw [packetCount_eq] at hj
  rcases Nat.lt_or_eq_of_le hle with hlt | heq
  · have hstep := Nat.mul_le_mul_left d hlt
    rw [Nat.mul_succ] at hstep
    omega
  · rw [heq] at hjeq ⊢
    omega

theorem slot_data_lt {d p n j : Nat} (hd : 1 ≤ d) (hj : j < packetCount d p n)
    (hi : j % (d + p) < d) : d * (j / (d + p)) + j % (d + p) < n := by
  have hcovered := slot_covered hd hj
  rw [Nat.min_eq_left hi] at hcovered
  exact hcovered

theorem slot_parity_le {d p n j : Nat} (hd : 1 ≤ d) (hj : j < packetCount d p n)
    (hi : ¬ j % (d + p) < d) : d * (j / (d + p)) + d ≤ n := by
  have hcovered := slot_covered hd hj
  rw [Nat.min_eq_right (Nat.le_succ_of_le (Nat.le_of_not_lt hi))] at hcovered
  exact hcovered

variable (more : List (List Byte)) {ds : List (List Byte)}

theorem groupPayloads_append {d g : Nat} (h : d * g + d ≤ ds.length) :
    groupPayloads d (ds ++ more) g = groupPayloads d ds g := by
  unfold groupPayloads
  rw [drop_append_of_le_length (by omega), take_append_of_le_length (by simp; omega)]

variable {fec : Fec}

theorem slotShard_append {d p j : Nat} (hd : 1 ≤ d) (hj : j < packetCount d p ds.length) :
    slotShard fec d p (ds ++ more) j = slotShard fec d p ds j := by
  unfold slotShard
  by_cases hi : j % (d + p) < d
  · have hlt := slot_data_lt hd hj hi
    rw [if_pos hi, if_pos hi, getD_eq_getElem?_getD, List.getElem?_append_left hlt,
      getD_eq_getElem?_getD]
  · rw [if_neg hi, if_neg hi, groupPayloads_append more (slot_parity_le hd hj hi)]

theorem slotPacket_append {d p j : Nat} (hd : 1 ≤ d) (hj : j < packetCount d p ds.length) :
    slotPacket fec d p (ds ++ more) j = slotPacket fec d p ds j := by
  rw [slotPacket, slotPacket, slotShard_append more hd hj]

/-!
## What the sender has emitted
-/

/-- The packets out so far are the slots of the datagrams passed so far, and the open
group holds the rows of the last ones. -/
structure Sent (fec : Fec) (d p : Nat) (s : KcpSession) (net : List (List Byte)) : Prop where
  codec : s.fec = some fec
  dataShards : s.dataShards = d
  packets : net = (range (packetCount d p s.encoded.length)).map
    (slotPacket fec d p s.encoded)
  seqid : s.fecSeqid = UInt32.ofNat net.length
  pending : s.pendingShards = (groupPayloads d s.encoded (s.encoded.length / d)).map rsRow
  maxSize : s.pendingMaxSize = longestRow (groupPayloads d s.encoded (s.encoded.length / d))

variable {net : List (List Byte)} {s : KcpSession} {d p : Nat}

theorem Sent.length (h : Sent fec d p s net) : net.length = packetCount d p s.encoded.length := by
  rw [h.packets]
  simp

theorem Sent.get (h : Sent fec d p s net) {j : Nat} (hj : j < net.length) :
    net[j]? = some (slotPacket fec d p s.encoded j) := by
  have hlen := h.length
  rw [h.packets, List.getElem?_map, List.getElem?_range (by omega), Option.map_some]

theorem openPayloads_eq (hd : 1 ≤ d) (ds : List (List Byte)) :
    groupPayloads d ds (ds.length / d) = ds.drop (d * (ds.length / d)) := by
  have hn := Nat.div_add_mod ds.length d
  have hr := Nat.mod_lt ds.length (show 0 < d by omega)
  apply take_of_length_le
  rw [length_drop]
  omega

theorem openPayloads_length (hd : 1 ≤ d) (ds : List (List Byte)) :
    (groupPayloads d ds (ds.length / d)).length = ds.length % d := by
  have hn := Nat.div_add_mod ds.length d
  rw [openPayloads_eq hd, length_drop]
  omega

theorem div_succ_of_lt {d n : Nat} (h : n % d + 1 < d) :
    (n + 1) / d = n / d ∧ (n + 1) % d = n % d + 1 := by
  have hn := Nat.div_add_mod n d
  have heq : n + 1 = d * (n / d) + (n % d + 1) := by omega
  exact ⟨by rw [heq, slot_div _ h], by rw [heq, slot_mod _ h]⟩

theorem div_succ_of_eq {d n : Nat} (hd : 1 ≤ d) (h : n % d + 1 = d) :
    (n + 1) / d = n / d + 1 ∧ (n + 1) % d = 0 := by
  have hn := Nat.div_add_mod n d
  have heq : n + 1 = d * (n / d + 1) + 0 := by
    rw [Nat.mul_succ]
    omega
  exact ⟨by rw [heq, slot_div _ (by omega)], by rw [heq, slot_mod _ (by omega)]⟩

theorem openPayloads_snoc (hd : 1 ≤ d) (ds : List (List Byte)) (x : List Byte) :
    groupPayloads d (ds ++ [x]) (ds.length / d) = groupPayloads d ds (ds.length / d) ++ [x] := by
  have hn := Nat.div_add_mod ds.length d
  have hr := Nat.mod_lt ds.length (show 0 < d by omega)
  rw [openPayloads_eq hd]
  unfold groupPayloads
  rw [drop_append_of_le_length (by omega), take_of_length_le]
  simp
  omega

theorem longestRow_snoc (payloads : List (List Byte)) (x : List Byte) :
    longestRow (payloads ++ [x]) = max (longestRow payloads) (rsRow x).length := by
  simp [longestRow]

theorem parityPackets_eq (seqid : UInt32) (rows : List (List Byte)) :
    parityPackets seqid rows =
      (rows.mapIdx fun i row => wirePacket (seqid + UInt32.ofNat i) typeParity row,
        seqid + UInt32.ofNat rows.length) := by
  induction rows generalizing seqid with
  | nil =>
    simp [parityPackets]
  | cons row rows ih =>
    have hshift : forall i, seqid + 1 + UInt32.ofNat i = seqid + UInt32.ofNat (i + 1) := by
      intro i
      rw [UInt32.ofNat_add, UInt32.add_assoc, UInt32.add_comm 1]
      rfl
    simp only [parityPackets, ih, hshift, mapIdx_cons, length_cons]
    simp

theorem le_longestRow {payloads : List (List Byte)} {x : List Byte} (h : x ∈ payloads) :
    (rsRow x).length ≤ longestRow payloads :=
  (Fec.le_foldl_max _ 0).2 _ (mem_map.mpr ⟨x, h, rfl⟩)

theorem zeroExtend_length {n : Nat} {row : List Byte} (h : row.length ≤ n) :
    (Fec.zeroExtend n row).length = n := by
  simp [Fec.zeroExtend]
  omega

theorem paddedRows_block (payloads : List (List Byte)) :
    Fec.Block payloads.length (longestRow payloads) (paddedRows payloads) where
  count := by simp [paddedRows]
  widths := by
    intro row hrow
    obtain ⟨x, hx, rfl⟩ := mem_map.mp hrow
    exact zeroExtend_length (le_longestRow hx)

theorem slotPacket_next (hd : 1 ≤ d) (ds : List (List Byte)) (x : List Byte) :
    slotPacket fec d p (ds ++ [x]) (packetCount d p ds.length) =
      wirePacket (UInt32.ofNat (packetCount d p ds.length)) typeData (rsRow x) := by
  have hn := Nat.div_add_mod ds.length d
  have hr := Nat.mod_lt ds.length (show 0 < d by omega)
  have hlt : ds.length % d < d + p := by omega
  unfold slotPacket slotType slotShard
  rw [packetCount_eq, slot_mod _ hlt, slot_div _ hlt, if_pos hr, if_pos hr, hn]
  simp [getD_eq_getElem?_getD]

theorem slotPacket_parity {d p k : Nat} (ds : List (List Byte)) (g : Nat) (hk : k < p) :
    slotPacket fec d p ds ((d + p) * g + (d + k)) =
      wirePacket (UInt32.ofNat ((d + p) * g + (d + k))) typeParity
        (fec.codeRow (paddedRows (groupPayloads d ds g)) (longestRow (groupPayloads d ds g))
          (d + k)) := by
  have hlt : d + k < d + p := by omega
  unfold slotPacket slotType slotShard
  rw [slot_mod _ hlt, slot_div _ hlt, if_neg (by omega), if_neg (by omega)]

theorem slots_snoc (hd : 1 ≤ d) (ds : List (List Byte)) (x : List Byte) {more : Nat}
    (hcount : packetCount d p (ds.length + 1) = packetCount d p ds.length + 1 + more) :
    (range (packetCount d p (ds ++ [x]).length)).map (slotPacket fec d p (ds ++ [x])) =
      (range (packetCount d p ds.length)).map (slotPacket fec d p ds) ++
        wirePacket (UInt32.ofNat (packetCount d p ds.length)) typeData (rsRow x) ::
          (range more).map fun k =>
            slotPacket fec d p (ds ++ [x]) (packetCount d p ds.length + 1 + k) := by
  have hold : (range (packetCount d p ds.length)).map (slotPacket fec d p (ds ++ [x])) =
      (range (packetCount d p ds.length)).map (slotPacket fec d p ds) := by
    apply map_congr_left
    intro j hj
    exact slotPacket_append [x] hd (mem_range.mp hj)
  rw [length_append, length_singleton, hcount, range_add, range_succ,
    map_append, map_append, hold, map_singleton, slotPacket_next hd, map_map,
    append_assoc]
  rfl

theorem pushShard_pending (hd : 1 ≤ d) (h : Sent fec d p s net) (x : List Byte) :
    (s.pushShard x).pendingShards =
      (groupPayloads d (s.encoded ++ [x]) (s.encoded.length / d)).map rsRow := by
  rw [openPayloads_snoc hd, map_append, ← h.pending]
  rfl

theorem pushShard_maxSize (hd : 1 ≤ d) (h : Sent fec d p s net) (x : List Byte) :
    (s.pushShard x).pendingMaxSize =
      longestRow (groupPayloads d (s.encoded ++ [x]) (s.encoded.length / d)) := by
  rw [openPayloads_snoc hd, longestRow_snoc, ← h.maxSize]
  rfl

theorem pushShard_pending_length (hd : 1 ≤ d) (h : Sent fec d p s net) (x : List Byte) :
    (s.pushShard x).pendingShards.length = s.encoded.length % d + 1 := by
  rw [pushShard_pending hd h, openPayloads_snoc hd, length_map, length_append,
    openPayloads_length hd, length_singleton]

theorem pushShard_sent (hd : 1 ≤ d) (h : Sent fec d p s net) (x : List Byte)
    (hopen : s.encoded.length % d + 1 < d) :
    Sent fec d p (s.pushShard x) (net ++ [wirePacket s.fecSeqid typeData (rsRow x)]) := by
  obtain ⟨hdiv, _⟩ := div_succ_of_lt hopen
  have hcount : packetCount d p (s.encoded.length + 1) =
      packetCount d p s.encoded.length + 1 + 0 := by
    unfold packetCount
    rw [hdiv]
    omega
  refine ⟨h.codec, h.dataShards, ?_, ?_, ?_, ?_⟩
  · refine Eq.trans ?_ (slots_snoc hd s.encoded x hcount).symm
    rw [← h.packets, h.seqid, h.length]
    rfl
  · change s.fecSeqid + 1 = _
    rw [length_append, length_singleton, UInt32.ofNat_add, h.seqid]
    rfl
  · change (s.pushShard x).pendingShards =
      (groupPayloads d (s.encoded ++ [x]) ((s.encoded ++ [x]).length / d)).map rsRow
    rw [length_append, length_singleton, hdiv, pushShard_pending hd h]
  · change (s.pushShard x).pendingMaxSize =
      longestRow (groupPayloads d (s.encoded ++ [x]) ((s.encoded ++ [x]).length / d))
    rw [length_append, length_singleton, hdiv, pushShard_maxSize hd h]

variable {r : Nat -> Nat -> Gf256}

theorem flushParity_sent (hg : Fec.Generates d p r fec) (h : Sent fec d p s net) (x : List Byte)
    (hfull : s.encoded.length % d + 1 = d) :
    Sent fec d p (flushParity fec (s.pushShard x)).2
      (net ++ wirePacket s.fecSeqid typeData (rsRow x) ::
        (flushParity fec (s.pushShard x)).1) := by
  have hd := hg.data_pos
  obtain ⟨hdiv, _⟩ := div_succ_of_eq hd hfull
  have hcount : packetCount d p (s.encoded.length + 1) =
      packetCount d p s.encoded.length + 1 + p := by
    unfold packetCount
    rw [hdiv, Nat.mul_succ]
    omega
  have hgroup : (groupPayloads d (s.encoded ++ [x]) (s.encoded.length / d)).length = d := by
    rw [openPayloads_snoc hd, length_append, openPayloads_length hd, length_singleton,
      hfull]
  have hempty : groupPayloads d (s.encoded ++ [x]) ((s.encoded ++ [x]).length / d) = [] := by
    apply eq_nil_of_length_eq_zero
    rw [openPayloads_length hd, length_append, length_singleton,
      (div_succ_of_eq hd hfull).2]
  have hrows : (s.pushShard x).pendingShards.map
      (Fec.zeroExtend (s.pushShard x).pendingMaxSize) =
        paddedRows (groupPayloads d (s.encoded ++ [x]) (s.encoded.length / d)) := by
    rw [pushShard_pending hd h, pushShard_maxSize hd h, map_map]
    rfl
  have hblock := paddedRows_block
    (groupPayloads d (s.encoded ++ [x]) (s.encoded.length / d))
  rw [hgroup] at hblock
  have hparity := Fec.encodeParity_eq hg hblock
  have hseq : (s.pushShard x).fecSeqid =
      UInt32.ofNat (packetCount d p s.encoded.length + 1) := by
    change s.fecSeqid + 1 = _
    rw [UInt32.ofNat_add, h.seqid, h.length]
    rfl
  have hslot : forall k, packetCount d p s.encoded.length + 1 + k =
      (d + p) * (s.encoded.length / d) + (d + k) := by
    intro k
    rw [packetCount_eq]
    omega
  unfold flushParity
  simp only [hrows, hparity, Option.getD_some, parityPackets_eq, hseq]
  refine ⟨h.codec, h.dataShards, ?_, ?_, ?_, ?_⟩
  · refine Eq.trans ?_ (slots_snoc hd s.encoded x hcount).symm
    rw [← h.packets, h.seqid, h.length]
    congr 2
    apply ext_getElem
    · simp
    · intro k hk _
      have hkp : k < p := by simpa using hk
      simp only [getElem_mapIdx, getElem_map, getElem_range]
      rw [hslot, slotPacket_parity _ _ hkp, ← UInt32.ofNat_add, hslot]
  · change UInt32.ofNat (packetCount d p s.encoded.length + 1) + UInt32.ofNat _ = _
    rw [length_map, length_range, ← UInt32.ofNat_add, length_append,
      length_cons, length_mapIdx, length_map, length_range, h.length]
    congr 1
    omega
  · change [] = (groupPayloads d (s.encoded ++ [x]) ((s.encoded ++ [x]).length / d)).map rsRow
    rw [hempty]
    rfl
  · change 0 = longestRow (groupPayloads d (s.encoded ++ [x]) ((s.encoded ++ [x]).length / d))
    rw [hempty]
    rfl

theorem encodeChunk_sent (hg : Fec.Generates d p r fec) (h : Sent fec d p s net) (raw : List Byte) :
    Sent fec d p (encodeChunk fec s raw).2 (net ++ (encodeChunk fec s raw).1) := by
  have hd := hg.data_pos
  have hlen := pushShard_pending_length hd h (raw.drop kcpWireOverhead)
  have hr := Nat.mod_lt s.encoded.length (show 0 < d by omega)
  have hshards : (s.pushShard (raw.drop kcpWireOverhead)).dataShards = d := h.dataShards
  unfold encodeChunk
  simp only [hlen, hshards]
  split
  · rename_i hfull
    exact flushParity_sent hg h _ hfull
  · rename_i hopen
    exact pushShard_sent hd h _ (by omega)

theorem encodeChunk_encoded (fec : Fec) (s : KcpSession) (raw : List Byte) :
    (encodeChunk fec s raw).2.encoded = s.encoded ++ [raw.drop kcpWireOverhead] := by
  unfold encodeChunk
  simp only []
  split <;> rfl

theorem encodeChunks_sent (hg : Fec.Generates d p r fec) (h : Sent fec d p s net)
    (output : List (List Byte)) :
    Sent fec d p (encodeChunks fec s output).2 (net ++ (encodeChunks fec s output).1) := by
  induction output generalizing s net with
  | nil =>
    rw [encodeChunks, append_nil]
    exact h
  | cons raw rest ih =>
    have hfirst := encodeChunk_sent hg h raw
    have hrest := ih hfirst
    rw [append_assoc] at hrest
    exact hrest

theorem encodeChunks_encoded (fec : Fec) (s : KcpSession) (output : List (List Byte)) :
    (encodeChunks fec s output).2.encoded =
      s.encoded ++ output.map (drop kcpWireOverhead) := by
  induction output generalizing s with
  | nil =>
    simp [encodeChunks]
  | cons raw rest ih =>
    simp [encodeChunks, ih, encodeChunk_encoded]

/-!
## Batches
-/

/-- The buffer `KcpWriter` makes of a datagram. -/
def chunk (datagram : List Byte) : List Byte :=
  replicate kcpWireOverhead 0 ++ datagram

def encodeBatches : KcpSession -> List (List (List Byte)) -> List (List Byte) × KcpSession
  | s, [] => ([], s)
  | s, batch :: rest =>
    let first := s.fecEncodeOutput (batch.map chunk)
    let others := encodeBatches first.2 rest
    (first.1 ++ others.1, others.2)

variable (conv : UInt32)

theorem new_codec {config : KcpConfig} (readTx : Channel) (hd : 1 ≤ config.dataShards)
    (hp : 1 ≤ config.parityShards) (hdp : config.dataShards + config.parityShards ≤ 256)
    (hfec : Fec.new config.dataShards config.parityShards = some fec) :
    (new conv config readTx).fec = some fec ∧
      (new conv config readTx).dataShards = config.dataShards := by
  have henabled : decide (config.dataShards > 0 ∧ config.parityShards > 0) = true := by
    simp
    omega
  have hmin : min config.dataShards 256 = config.dataShards := by omega
  simp [new, henabled, hmin, hfec]

theorem new_sent {config : KcpConfig} (readTx : Channel) (hd : 1 ≤ config.dataShards)
    (hp : 1 ≤ config.parityShards) (hdp : config.dataShards + config.parityShards ≤ 256) :
    exists fec r, Fec.new config.dataShards config.parityShards = some fec ∧
      Fec.Generates config.dataShards config.parityShards r fec ∧
        Sent fec config.dataShards config.parityShards (new conv config readTx) [] := by
  obtain ⟨fec, r, hfec, hg⟩ := Fec.new_generates hd hp hdp
  obtain ⟨hcodec, hdata⟩ := new_codec conv readTx hd hp hdp hfec
  refine ⟨fec, r, hfec, hg, hcodec, hdata, ?_, rfl, ?_, ?_⟩
  · simp [new, packetCount]
  · simp [new, groupPayloads]
  · simp [new, groupPayloads, longestRow]

theorem encodeBatches_sent (hg : Fec.Generates d p r fec) (h : Sent fec d p s net)
    (batches : List (List (List Byte))) :
    Sent fec d p (encodeBatches s batches).2 (net ++ (encodeBatches s batches).1) ∧
      (encodeBatches s batches).2.encoded = s.encoded ++ batches.flatten := by
  induction batches generalizing s net with
  | nil =>
    simp only [encodeBatches, append_nil, flatten_nil, and_true]
    exact h
  | cons batch rest ih =>
    have hbatch : s.fecEncodeOutput (batch.map chunk) = encodeChunks fec s (batch.map chunk) := by
      rw [fecEncodeOutput, h.codec]
    have hdrop : (batch.map chunk).map (drop kcpWireOverhead) = batch := by
      rw [map_map]
      conv => rhs; rw [← map_id batch]
      apply map_congr_left
      intro datagram _
      simp [chunk]
    obtain ⟨hsent, hencoded⟩ := ih (encodeChunks_sent hg h (batch.map chunk))
    simp only [encodeBatches, hbatch]
    rw [append_assoc] at hsent
    refine ⟨hsent, ?_⟩
    rw [hencoded, encodeChunks_encoded, hdrop, flatten_cons, append_assoc]

/-!
## What the receiver makes of the sequence numbers
-/

def seqidOf (packet : List Byte) : UInt32 :=
  readU32Le packet

/-- The receiver's index of every packet is its index in the sender's group, packets of
one group have one key, and packets with one key that are less than a round of the
counter apart are of one group. -/
structure Grouped (total : Nat) (packets : List (List Byte)) : Prop where
  index : forall j packet, packets[j]? = some packet ->
    (seqidOf packet).toNat % total = j % total
  key : forall j j' packet packet', packets[j]? = some packet -> packets[j']? = some packet' ->
    j / total = j' / total ->
      groupKey total (seqidOf packet) = groupKey total (seqidOf packet')
  apart : forall j j' packet packet', packets[j]? = some packet -> packets[j']? = some packet' ->
    j ≤ j' -> j' ≤ j + (4294967296 - total) ->
      groupKey total (seqidOf packet) = groupKey total (seqidOf packet') ->
        j / total = j' / total

theorem seqidOf_slotPacket (fec : Fec) (d p : Nat) (ds : List (List Byte)) (j : Nat) :
    seqidOf (slotPacket fec d p ds j) = UInt32.ofNat j := by
  unfold seqidOf slotPacket wirePacket
  rw [append_assoc, readU32Le_append]

theorem groupKey_toNat {total : Nat} (htotal : total < 4294967296) (seqid : UInt32) :
    (groupKey total seqid).toNat = total * (seqid.toNat / total) := by
  have hmod : (seqid % UInt32.ofNat total).toNat = seqid.toNat % total := by
    rw [UInt32.toNat_mod, UInt32.toNat_ofNat_of_lt' htotal]
  have hle : seqid % UInt32.ofNat total ≤ seqid := by
    exact Nat.mod_le _ _
  have hdiv := Nat.div_add_mod seqid.toNat total
  unfold groupKey
  rw [UInt32.toNat_sub_of_le _ _ hle, hmod]
  omega

theorem wrapped_slot {total m j : Nat} (hm : total * m = 4294967296) :
    (UInt32.ofNat j).toNat / total = j / total % m ∧
      (UInt32.ofNat j).toNat % total = j % total := by
  have hval : (UInt32.ofNat j).toNat = j % (total * m) := by
    rw [UInt32.toNat_ofNat', hm]
  rw [hval]
  exact ⟨Nat.mod_mul_right_div_self j total m, Nat.mod_mul_right_mod j total m⟩

theorem same_of_mod_eq {total m j j' : Nat} (hpos : 1 ≤ total) (hm : total * m = 4294967296)
    (hle : j ≤ j') (hnear : j' ≤ j + (4294967296 - total))
    (hmod : j / total % m = j' / total % m) : j / total = j' / total := by
  have hmono : j / total ≤ j' / total := Nat.div_le_div_right hle
  have hj := Nat.div_add_mod j total
  have hj' := Nat.div_add_mod j' total
  have hr := Nat.mod_lt j (show 0 < total by omega)
  have hm1 : total ≤ total * m := by
    have : 1 ≤ m := by
      rcases Nat.eq_zero_or_pos m with rfl | h
      · omega
      · exact h
    exact Nat.le_mul_of_pos_right total this
  have hlt : total * (j' / total) < total * (j / total + m) := by
    rw [Nat.mul_add]
    omega
  have hdiff : j' / total - j / total < m := by
    have := Nat.lt_of_mul_lt_mul_left hlt
    omega
  have hzero := Nat.sub_mod_eq_zero_of_mod_eq hmod.symm
  rw [Nat.mod_eq_of_lt hdiff] at hzero
  omega

theorem grouped_of_slots {total : Nat} {packets : List (List Byte)} (htotal : total < 4294967296)
    (hseq : forall j packet, packets[j]? = some packet -> seqidOf packet = UInt32.ofNat j)
    (hpos : 1 ≤ total)
    (hcond : packets.length ≤ 4294967296 ∨ total ∣ 4294967296) : Grouped total packets := by
  rcases hcond with hshort | ⟨m, hm⟩
  · have hval : forall j packet, packets[j]? = some packet -> (seqidOf packet).toNat = j := by
      intro j packet hj
      obtain ⟨hlt, _⟩ := List.getElem?_eq_some_iff.mp hj
      rw [hseq j packet hj, UInt32.toNat_ofNat_of_lt' (by change j < 4294967296; omega)]
    refine ⟨?_, ?_, ?_⟩
    · intro j packet hj
      rw [hval j packet hj]
    · intro j j' packet packet' hj hj' hsame
      apply UInt32.toNat_inj.mp
      rw [groupKey_toNat htotal, groupKey_toNat htotal, hval j packet hj, hval j' packet' hj',
        hsame]
    · intro j j' packet packet' hj hj' _ _ hkey
      have hnat := congrArg UInt32.toNat hkey
      rw [groupKey_toNat htotal, groupKey_toNat htotal, hval j packet hj,
        hval j' packet' hj'] at hnat
      exact Nat.eq_of_mul_eq_mul_left (by omega) hnat
  · have hslot : forall j packet, packets[j]? = some packet ->
        (seqidOf packet).toNat / total = j / total % m ∧
          (seqidOf packet).toNat % total = j % total := by
      intro j packet hj
      rw [hseq j packet hj]
      exact wrapped_slot hm.symm
    refine ⟨?_, ?_, ?_⟩
    · intro j packet hj
      exact (hslot j packet hj).2
    · intro j j' packet packet' hj hj' hsame
      apply UInt32.toNat_inj.mp
      rw [groupKey_toNat htotal, groupKey_toNat htotal, (hslot j packet hj).1,
        (hslot j' packet' hj').1, hsame]
    · intro j j' packet packet' hj hj' hle hnear hkey
      have hnat := congrArg UInt32.toNat hkey
      rw [groupKey_toNat htotal, groupKey_toNat htotal, (hslot j packet hj).1,
        (hslot j' packet' hj').1] at hnat
      have hmod : j / total % m = j' / total % m := Nat.eq_of_mul_eq_mul_left (by omega) hnat
      exact same_of_mod_eq hpos hm.symm hle hnear hmod

theorem not_grouped_of_wrap {total : Nat} {packets : List (List Byte)}
    (hseq : forall j packet, packets[j]? = some packet -> seqidOf packet = UInt32.ofNat j)
    (hlong : 4294967296 < packets.length) (hndvd : ¬ total ∣ 4294967296) :
    ¬ Grouped total packets := by
  intro h
  have hget := List.getElem?_eq_getElem hlong
  have hindex := h.index _ _ hget
  rw [hseq _ _ hget] at hindex
  apply hndvd
  rw [Nat.dvd_iff_mod_eq_zero, ← hindex]
  exact Nat.zero_mod total

theorem batches_slots (config : KcpConfig) (readTx : Channel) (batches : List (List (List Byte)))
    (hd : 1 ≤ config.dataShards) (hp : 1 ≤ config.parityShards)
    (hdp : config.dataShards + config.parityShards ≤ 256) :
    exists fec, Fec.new config.dataShards config.parityShards = some fec ∧
      (encodeBatches (new conv config readTx) batches).1 =
        (range (packetCount config.dataShards config.parityShards
          batches.flatten.length)).map
            (slotPacket fec config.dataShards config.parityShards batches.flatten) := by
  obtain ⟨fec, r, hfec, hg, hnew⟩ := new_sent conv readTx hd hp hdp
  obtain ⟨hsent, hencoded⟩ := encodeBatches_sent hg hnew batches
  have hds : (encodeBatches (new conv config readTx) batches).2.encoded = batches.flatten := by
    rw [hencoded]
    rfl
  have hpackets := hsent.packets
  rw [hds, nil_append] at hpackets
  exact ⟨fec, hfec, hpackets⟩

theorem seqidOf_slots {d p n : Nat} {ds packets : List (List Byte)}
    (h : packets = (range n).map (slotPacket fec d p ds)) :
    forall j packet, packets[j]? = some packet -> seqidOf packet = UInt32.ofNat j := by
  intro j packet hj
  rw [h, List.getElem?_map] at hj
  obtain ⟨i, hi, rfl⟩ := Option.map_eq_some_iff.mp hj
  obtain ⟨_, hget⟩ := List.getElem?_eq_some_iff.mp hi
  rw [getElem_range] at hget
  rw [← hget, seqidOf_slotPacket]

/-- Packet by packet, what a session emits for a sequence of batches; and the receiver's
groups are the sender's exactly when the counter does not wrap or wraps between two
groups. -/
theorem batches_grouped_iff (conv : UInt32) (config : KcpConfig) (readTx : Channel)
    (batches : List (List (List Byte))) (hd : 1 ≤ config.dataShards)
    (hp : 1 ≤ config.parityShards) (hdp : config.dataShards + config.parityShards ≤ 256) :
    (exists fec, Fec.new config.dataShards config.parityShards = some fec ∧
      (encodeBatches (new conv config readTx) batches).1 =
        (range (packetCount config.dataShards config.parityShards
          batches.flatten.length)).map
            (slotPacket fec config.dataShards config.parityShards batches.flatten)) ∧
    (Grouped (config.dataShards + config.parityShards)
        (encodeBatches (new conv config readTx) batches).1 ↔
      packetCount config.dataShards config.parityShards batches.flatten.length ≤ 4294967296 ∨
        config.dataShards + config.parityShards ∣ 4294967296) := by
  obtain ⟨fec, hfec, hpackets⟩ := batches_slots conv config readTx batches hd hp hdp
  have hseq := seqidOf_slots hpackets
  have hlength := congrArg length hpackets
  rw [length_map, length_range] at hlength
  refine ⟨⟨fec, hfec, hpackets⟩, ?_, ?_⟩
  · intro hgrouped
    by_cases hdvd : config.dataShards + config.parityShards ∣ 4294967296
    · exact Or.inr hdvd
    · left
      rw [← hlength]
      apply Nat.le_of_not_lt
      intro hlong
      exact not_grouped_of_wrap hseq hlong hdvd hgrouped
  · intro hcond
    rw [← hlength] at hcond
    exact grouped_of_slots (by omega) hseq (by omega) hcond

def defaultKcpConfig : KcpConfig where
  mtu := 1350
  nodelay := true
  interval := 20
  resend := 2
  nc := true
  sndWnd := 1024
  rcvWnd := 1024
  dataShards := 10
  parityShards := 3
  stream := true

theorem batches_grouped_iff_pair :
    (exists fec, Fec.new 10 3 = some fec ∧
      (encodeBatches (new 7 defaultKcpConfig ⟨16, [], false⟩) [[[1]], [[2]]]).1 =
        (range (packetCount 10 3 2)).map (slotPacket fec 10 3 [[1], [2]])) ∧
    (Grouped (10 + 3) (encodeBatches (new 7 defaultKcpConfig ⟨16, [], false⟩) [[[1]], [[2]]]).1 ↔
      packetCount 10 3 2 ≤ 4294967296 ∨ 10 + 3 ∣ 4294967296) :=
  batches_grouped_iff 7 defaultKcpConfig ⟨16, [], false⟩ [[[1]], [[2]]] (by decide) (by decide)
    (by decide)

def windowProbe : List Byte :=
  [7, 0, 0, 0, 83, 0, 128, 0] ++ replicate 16 0

/-- With 10 data and 3 parity shards the groups fall apart when the counter wraps. -/
theorem wrapped_not_grouped :
    ¬ Grouped (10 + 3) (encodeBatches (new 7 defaultKcpConfig ⟨16, [], false⟩)
      [replicate 3303821000 windowProbe]).1 := by
  obtain ⟨fec, _, hpackets⟩ := batches_slots 7 defaultKcpConfig ⟨16, [], false⟩
    [replicate 3303821000 windowProbe] (by decide) (by decide) (by decide)
  apply not_grouped_of_wrap (seqidOf_slots hpackets)
  · rw [hpackets, length_map, length_range, flatten_singleton,
      length_replicate]
    decide
  · decide

end KcpSession
end FrpRs
