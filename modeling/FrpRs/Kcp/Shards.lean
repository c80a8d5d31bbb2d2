import FrpRs.Kcp.Grouping

/-!
# Receiving shards

What `KcpSession::input` does with a packet of the sender.  Every group in the table
holds shards of one of the sender's groups, fewer than `data_shards` of them, and the
datagrams of its data shards have been handed on.  A group that fills up is decoded to
the sender's rows, so the datagrams that were missing are handed on before it is
removed.
-/

namespace FrpRs
namespace KcpSession

open List Bytes
open Fallible

/-!
## Rows and payloads
-/

def FitsSize (payload : List Byte) : Prop :=
  1 ≤ payload.length ∧ payload.length ≤ 65533

theorem rsRow_length (payload : List Byte) : (rsRow payload).length = payload.length + 2 := by
  simp [rsRow]
  omega

theorem shardPayload_rsRow_append {payload : List Byte} (h : FitsSize payload)
    (padding : List Byte) : shardPayload (rsRow payload ++ padding) = some payload := by
  obtain ⟨hpos, hmax⟩ := h
  have hsize : (readU16Le (rsRow payload ++ padding)).toNat = payload.length + 2 := by
    rw [rsRow, append_assoc, readU16Le_append, UInt16.toNat_add, UInt16.toNat_ofNat']
    change (2 + payload.length % 65536) % 65536 = payload.length + 2
    omega
  have hlen : (rsRow payload ++ padding).length = payload.length + 2 + padding.length := by
    rw [length_append, rsRow_length]
  have hdrop : (rsRow payload ++ padding).drop 2 = payload ++ padding := by
    simp [rsRow]
  unfold shardPayload
  simp only [hsize, hlen, hdrop]
  rw [if_neg (by omega), if_neg (by omega), if_pos (by omega)]
  rw [show min (payload.length + 2 - 2) (payload.length + 2 + padding.length - 2) =
    payload.length by omega, take_append_of_le_length (Nat.le_refl _), take_length]

theorem shardPayload_rsRow {payload : List Byte} (h : FitsSize payload) :
    shardPayload (rsRow payload) = some payload := by
  have hrow := shardPayload_rsRow_append h []
  rw [append_nil] at hrow
  exact hrow

/-!
## The table of groups
-/

variable {group : ShardGroup} {key : UInt32}

theorem lookup_dropOldestGroups {fuel : Nat} {groups : Table UInt32 ShardGroup}
    (h : (dropOldestGroups fuel groups).lookup key = some group) :
    groups.lookup key = some group := by
  induction fuel generalizing groups with
  | zero =>
    exact h
  | succ fuel ih =>
    unfold dropOldestGroups at h
    split at h
    · split at h
      · have herased := ih h
        rw [Table.lookup_erase_eq] at herased
        split at herased
        · cases herased
        · exact herased
      · exact h
    · exact h

variable {s : KcpSession}

theorem lookup_pruneOldGroups {now : Nat}
    (h : (s.pruneOldGroups now).shardGroups.lookup key = some group) :
    s.shardGroups.lookup key = some group := by
  have hretained := lookup_dropOldestGroups h
  rw [Table.lookup_retain, Option.filter_eq_some_iff] at hretained
  exact hretained.1

def Prunes (s : KcpSession) (now : Nat) (key : UInt32) : Prop :=
  (s.shardGroups.lookup key).isSome ∧ (s.pruneOldGroups now).shardGroups.lookup key = none

theorem lookup_of_not_prunes {now : Nat} (h : s.shardGroups.lookup key = some group)
    (hkept : ¬ Prunes s now key) :
    (s.pruneOldGroups now).shardGroups.lookup key = some group := by
  cases hpruned : (s.pruneOldGroups now).shardGroups.lookup key with
  | none =>
    exact absurd ⟨by rw [h]; rfl, hpruned⟩ hkept
  | some group' =>
    rw [← lookup_pruneOldGroups hpruned, h]

/-!
## Packets as the receiver reads them
-/

variable {fec : Fec}

theorem input_wirePacket {seqid : UInt32} {type : UInt16} (pruneMs nowMs : Nat) (shard : List Byte)
    (hfec : s.fec = some fec) (htype : type = typeData ∨ type = typeParity)
    (htotal : s.dataShards + s.parityShards ≠ 0) :
    s.input pruneMs nowMs (wirePacket seqid type shard) =
      (s.pruneOldGroups pruneMs).inputShard fec (s.dataShards + s.parityShards) nowMs seqid type
        shard := by
  have hlen : ¬ (wirePacket seqid type shard).length < fecHeaderSize := by
    simp [wirePacket, fecHeaderSize]
    omega
  have hseqid : readU32Le (wirePacket seqid type shard) = seqid := by
    rw [wirePacket, append_assoc, readU32Le_append]
  have hdrop4 : (wirePacket seqid type shard).drop 4 = u16Le type ++ shard := by
    rw [wirePacket, append_assoc, drop_left' (by simp)]
  have hdrop6 : (wirePacket seqid type shard).drop fecHeaderSize = shard := by
    rw [wirePacket, drop_left' (by simp [fecHeaderSize])]
  have hflag : ¬ (type ≠ typeData ∧ type ≠ typeParity) := by
    rcases htype with rfl | rfl
    · simp
    · simp
  have hpruned : (s.pruneOldGroups pruneMs).fec = some fec := hfec
  unfold input
  simp only [hpruned, hseqid, hdrop4, hdrop6, readU16Le_append]
  rw [if_neg hlen, if_neg hflag]
  exact if_neg htotal

theorem slot_of_seqid {total j : Nat} (htotal : total < 4294967296) (hj : j < 4294967296) :
    (groupKey total (UInt32.ofNat j)).toNat = total * (j / total) ∧
      (UInt32.ofNat j).toNat % total = j % total := by
  have hval : (UInt32.ofNat j).toNat = j := UInt32.toNat_ofNat_of_lt' hj
  rw [groupKey_toNat htotal, hval]
  exact ⟨rfl, rfl⟩

/-!
## Feeding
-/

/-- The part of a session that feeding changes. -/
structure Fed (payloads : List (List Byte)) (s s' : KcpSession) : Prop where
  fec : s'.fec = s.fec
  dataShards : s'.dataShards = s.dataShards
  parityShards : s'.parityShards = s.parityShards
  shardGroups : s'.shardGroups = s.shardGroups
  handed : s'.handed = s.handed ++ payloads

theorem Fed.refl (s : KcpSession) : Fed [] s s :=
  ⟨rfl, rfl, rfl, rfl, by simp⟩

theorem feed_fed (s : KcpSession) (payload : List Byte) :
    Fed [payload] s (s.feed payload).2 := by
  apply andThen_state (P := fun s' : KcpSession => Fed [payload] s s')
  · exact ⟨rfl, rfl, rfl, rfl, rfl⟩
  · intro _ s' _ h
    exact h

theorem feedAll_fed (s : KcpSession) (payloads : List (List Byte)) :
    exists fed, fed <+: payloads ∧ Fed fed s (s.feedAll payloads).2 ∧
      ((s.feedAll payloads).1 = .ok () -> fed = payloads) := by
  induction payloads generalizing s with
  | nil =>
    exact ⟨[], prefix_refl _, Fed.refl s, fun _ => rfl⟩
  | cons payload rest ih =>
    have hfirst := feed_fed s payload
    unfold feedAll
    cases hfeed : s.feed payload with
    | mk res s' =>
      rw [hfeed] at hfirst
      cases res with
      | error e =>
        refine ⟨[payload], ⟨rest, rfl⟩, hfirst, ?_⟩
        intro h
        cases h
      | ok u =>
        obtain ⟨fed, ⟨tail, rfl⟩, hfed, hall⟩ := ih s'
        refine ⟨payload :: fed, ⟨tail, rfl⟩, ?_, ?_⟩
        · exact ⟨hfed.fec.trans hfirst.fec, hfed.dataShards.trans hfirst.dataShards,
            hfed.parityShards.trans hfirst.parityShards,
            hfed.shardGroups.trans hfirst.shardGroups,
            by rw [andThen_ok, hfed.handed, hfirst.handed]; simp⟩
        · intro h
          rw [← hall h]

/-!
## Groups in the table
-/

/-- The shards of `group` are shards of the sender's group `g`, and the datagrams of its
data shards have been handed on. -/
structure Holds (fec : Fec) (d p g : Nat) (ds handed : List (List Byte))
    (group : ShardGroup) : Prop where
  length : group.shards.length = d + p
  count : group.receivedCount = (Fec.present group.shards).length
  shards : forall i shard, group.shards.getD i none = some shard ->
    (d + p) * g + i < packetCount d p ds.length ∧
      shard = slotShard fec d p ds ((d + p) * g + i)
  fed : forall i, i < d -> (group.shards.getD i none).isSome -> ds.getD (d * g + i) [] ∈ handed

variable {shards : List (Option (List Byte))}

variable {i : Nat}

theorem lt_of_getD_some {shard : List Byte} (h : shards.getD i none = some shard) :
    i < shards.length := by
  by_cases hi : i < shards.length
  · exact hi
  · rw [getD_eq_getElem?_getD, getElem?_eq_none (by omega)] at h
    cases h

theorem slot_lt {d p g i n : Nat} (hd : 1 ≤ d) (hi : i < d)
    (h : (d + p) * g + i < packetCount d p n) : d * g + i < n := by
  have hlt : i < d + p := by omega
  have hdata := slot_data_lt hd h (by rw [slot_mod _ hlt]; exact hi)
  rw [slot_mod _ hlt, slot_div _ hlt] at hdata
  exact hdata

theorem slotShard_data {d p g i : Nat} (ds : List (List Byte)) (hi : i < d) :
    slotShard fec d p ds ((d + p) * g + i) = rsRow (ds.getD (d * g + i) []) := by
  have hlt : i < d + p := by omega
  rw [slotShard, slot_mod _ hlt, slot_div _ hlt, if_pos hi]

theorem slotShard_parity {d p g i : Nat} (ds : List (List Byte)) (hi : ¬ i < d) (hlt : i < d + p) :
    slotShard fec d p ds ((d + p) * g + i) =
      fec.codeRow (paddedRows (groupPayloads d ds g)) (longestRow (groupPayloads d ds g)) i := by
  rw [slotShard, slot_mod _ hlt, slot_div _ hlt, if_neg hi]

theorem packetCount_mono {d p m n : Nat} (h : m ≤ n) : packetCount d p m ≤ packetCount d p n := by
  have hdiv : m / d ≤ n / d := Nat.div_le_div_right h
  have hmul := Nat.mul_le_mul_left p hdiv
  unfold packetCount
  omega

theorem Holds.append {fec : Fec} {d p g : Nat} {ds handed : List (List Byte)}
    {group : ShardGroup} (hd : 1 ≤ d) (h : Holds fec d p g ds handed group)
    (more : List (List Byte)) : Holds fec d p g (ds ++ more) handed group where
  length := h.length
  count := h.count
  shards := by
    intro i shard hshard
    obtain ⟨hlt, hslot⟩ := h.shards i shard hshard
    rw [slotShard_append more hd hlt]
    refine ⟨Nat.lt_of_lt_of_le hlt (packetCount_mono ?_), hslot⟩
    simp
  fed := by
    intro i hi hsome
    obtain ⟨shard, hshard⟩ := Option.isSome_iff_exists.mp hsome
    have hlt := slot_lt hd hi (h.shards i shard hshard).1
    rw [getD_eq_getElem?_getD, getElem?_append_left hlt, ← getD_eq_getElem?_getD]
    exact h.fed i hi hsome

variable {d p g : Nat}

theorem Holds.handOn {ds handed handed' : List (List Byte)} (h : Holds fec d p g ds handed group)
    (hsub : handed ⊆ handed') :
    Holds fec d p g ds handed' group :=
  ⟨h.length, h.count, h.shards, fun i hi hsome => hsub (h.fed i hi hsome)⟩

theorem emptyGroup_holds (fec : Fec) (d p g now : Nat) (ds handed : List (List Byte)) :
    Holds fec d p g ds handed (emptyGroup (d + p) now) := by
  have hnone : forall i, ((emptyGroup (d + p) now).shards.getD i none).isSome = false := by
    intro i
    simp only [emptyGroup, getD_eq_getElem?_getD, getElem?_replicate]
    split <;> rfl
  refine ⟨by simp [emptyGroup], ?_, ?_, ?_⟩
  · have hpresent : Fec.present (emptyGroup (d + p) now).shards = [] := by
      apply eq_nil_iff_forall_not_mem.mpr
      intro i hi
      have := (Fec.mem_present.mp hi).2
      rw [hnone] at this
      cases this
    rw [hpresent]
    rfl
  · intro i shard hshard
    have := hnone i
    rw [hshard] at this
    cases this
  · intro i _ hsome
    rw [hnone] at hsome
    cases hsome

theorem present_length (shards : List (Option (List Byte))) :
    (Fec.present shards).length = shards.countP Option.isSome := by
  have hmap : (range shards.length).map (fun i => shards.getD i none) = shards := by
    apply ext_getElem
    · simp
    · intro i _ hi
      simp [getD_eq_getElem?_getD, hi]
  conv => rhs; rw [← hmap]
  rw [countP_map, countP_eq_length_filter]
  rfl

theorem present_set_length (shard : List Byte) (hi : i < shards.length)
    (hnone : shards.getD i none = none) :
    (Fec.present (shards.set i (some shard))).length = (Fec.present shards).length + 1 := by
  have hget : shards[i] = none := by
    rw [← hnone, getD_eq_getElem?_getD, getElem?_eq_getElem hi]
    rfl
  rw [present_length, present_length, countP_set hi, hget]
  simp

theorem getD_set_shard (hi : i < shards.length) (shard : List Byte) (k : Nat) :
    (shards.set i (some shard)).getD k none =
      if k = i then some shard else shards.getD k none := by
  rw [getD_eq_getElem?_getD, getElem?_set, getD_eq_getElem?_getD]
  by_cases hk : k = i
  · subst hk
    simp [hi]
  · rw [if_neg (Ne.symm hk), if_neg hk]

theorem storeShard_getD (hi : i < group.shards.length) (shard : List Byte) (k : Nat) :
    (storeShard group i shard).shards.getD k none =
      if k = i ∧ (group.shards.getD i none).isNone then some shard
      else group.shards.getD k none := by
  unfold storeShard
  by_cases hnone : (group.shards.getD i none).isNone
  · rw [if_pos hnone]
    simp only [getD_set_shard hi, hnone, and_true]
  · rw [if_neg hnone, if_neg fun h => hnone h.2]

theorem storeShard_isSome (hi : i < group.shards.length) (shard : List Byte) {k : Nat}
    (h : k = i ∨ (group.shards.getD k none).isSome) :
    ((storeShard group i shard).shards.getD k none).isSome := by
  rw [storeShard_getD hi]
  split
  · rfl
  · rename_i hskip
    rcases h with rfl | h
    · simpa [Option.isSome_iff_ne_none] using hskip
    · exact h

theorem storeShard_holds {ds handed : List (List Byte)} (h : Holds fec d p g ds handed group)
    (hi : i < d + p) (hout : (d + p) * g + i < packetCount d p ds.length)
    (hfed : i < d -> (group.shards.getD i none).isNone -> ds.getD (d * g + i) [] ∈ handed) :
    Holds fec d p g ds handed
      (storeShard group i (slotShard fec d p ds ((d + p) * g + i))) := by
  have hlt : i < group.shards.length := by
    rw [h.length]
    exact hi
  have hget := storeShard_getD hlt (slotShard fec d p ds ((d + p) * g + i))
  refine ⟨?_, ?_, ?_, ?_⟩
  · unfold storeShard
    split
    · rw [length_set, h.length]
    · exact h.length
  · unfold storeShard
    split
    · rename_i hnone
      rw [present_set_length _ hlt (Option.isNone_iff_eq_none.mp hnone), ← h.count]
    · exact h.count
  · intro k shard hshard
    rw [hget] at hshard
    split at hshard
    · rename_i hk
      cases hshard
      rw [hk.1]
      exact ⟨hout, rfl⟩
    · exact h.shards k shard hshard
  · intro k hk hsome
    rw [hget] at hsome
    split at hsome
    · rename_i hki
      rw [hki.1] at hk ⊢
      exact hfed hk hki.2
    · exact h.fed k hk hsome

/-!
## Decoding a full group
-/

theorem exists_parity {d n i : Nat} (hlen : shards.length = n) (hmissing : isMissing shards i)
    (hi : i < d) (hcount : d ≤ (Fec.present shards).length) :
    exists k shard, d ≤ k ∧ k < n ∧ shards.getD k none = some shard := by
  by_cases hall : forall k, k ∈ Fec.present shards -> k < d
  · exfalso
    have hnotin : i ∉ Fec.present shards := by
      intro hmem
      have hsome := (Fec.mem_present.mp hmem).2
      rw [Option.isNone_iff_eq_none.mp hmissing] at hsome
      cases hsome
    have hnodup : (i :: Fec.present shards).Nodup :=
      nodup_cons.mpr ⟨hnotin, Fec.present_nodup shards⟩
    have hsub : (i :: Fec.present shards) ⊆ range d := by
      intro k hk
      rcases mem_cons.mp hk with rfl | hk
      · exact mem_range.mpr hi
      · exact mem_range.mpr (hall k hk)
    have hle := (hnodup.subperm hsub).length_le
    rw [length_cons, length_range] at hle
    omega
  · obtain ⟨k, hk⟩ := Classical.not_forall.mp hall
    obtain ⟨hmem, hge⟩ := Classical.not_imp.mp hk
    obtain ⟨hlt, hsome⟩ := Fec.mem_present.mp hmem
    obtain ⟨shard, hshard⟩ := Option.isSome_iff_exists.mp hsome
    exact ⟨k, shard, by omega, by omega, hshard⟩

variable {ds : List (List Byte)}

theorem groupPayloads_length (h : d * g + d ≤ ds.length) :
    (groupPayloads d ds g).length = d := by
  simp [groupPayloads]
  omega

theorem groupPayloads_getD (ds : List (List Byte)) (hi : i < d) :
    (groupPayloads d ds g).getD i [] = ds.getD (d * g + i) [] := by
  simp [groupPayloads, getD_eq_getElem?_getD, hi]

theorem paddedRows_getD {payloads : List (List Byte)} (hi : i < payloads.length) :
    (paddedRows payloads).getD i [] =
      Fec.zeroExtend (longestRow payloads) (rsRow (payloads.getD i [])) := by
  simp [paddedRows, getD_eq_getElem?_getD, hi]

variable {r : Nat -> Nat -> Gf256}

theorem Holds.fromBlock {ds handed : List (List Byte)} (hg : Fec.Generates d p r fec)
    (h : Holds fec d p g ds handed group) (hfull : d * g + d ≤ ds.length) :
    fec.FromBlock (paddedRows (groupPayloads d ds g)) (longestRow (groupPayloads d ds g))
      (group.shards.map fun shard =>
        shard.map (Fec.zeroExtend (longestRow (groupPayloads d ds g)))) := by
  have hlen := groupPayloads_length hfull
  have hblock := paddedRows_block (groupPayloads d ds g)
  rw [hlen] at hblock
  intro i row hrow
  have hmap : (group.shards.map fun shard =>
      shard.map (Fec.zeroExtend (longestRow (groupPayloads d ds g)))).getD i none =
        (group.shards.getD i none).map
          (Fec.zeroExtend (longestRow (groupPayloads d ds g))) := by
    simp only [getD_eq_getElem?_getD, getElem?_map]
    cases group.shards[i]? with
    | none => rfl
    | some shard => rfl
  rw [hmap] at hrow
  obtain ⟨shard, hshard, rfl⟩ := Option.map_eq_some_iff.mp hrow
  have hi := lt_of_getD_some hshard
  rw [h.length] at hi
  rw [(h.shards i shard hshard).2]
  by_cases hid : i < d
  · rw [slotShard_data ds hid, Fec.codeRow, hg.dataShards, if_pos hid,
      paddedRows_getD (by omega), groupPayloads_getD ds hid]
  · rw [slotShard_parity ds hid hi]
    exact Fec.zeroExtend_of_length (Fec.codeRow_length hg hblock)

theorem Holds.blockSize {d p g k : Nat} {ds handed : List (List Byte)} {parity : List Byte}
    (hg : Fec.Generates d p r fec) (h : Holds fec d p g ds handed group)
    (hfull : d * g + d ≤ ds.length) (hk : d ≤ k) (hparity : group.shards.getD k none = some parity) :
    Fec.blockSize group.shards = longestRow (groupPayloads d ds g) := by
  have hlen := groupPayloads_length hfull
  have hblock := paddedRows_block (groupPayloads d ds g)
  rw [hlen] at hblock
  have hrow : forall i shard, group.shards.getD i none = some shard -> d ≤ i ->
      shard.length = longestRow (groupPayloads d ds g) := by
    intro i shard hshard hi
    have hlt := lt_of_getD_some hshard
    rw [h.length] at hlt
    rw [(h.shards i shard hshard).2, slotShard_parity ds (by omega) hlt]
    exact Fec.codeRow_length hg hblock
  apply Fec.blockSize_of_longest _ (Fec.mem_of_getD hparity) (hrow k parity hparity hk)
  intro shard hmem
  obtain ⟨i, hi, hget⟩ := mem_iff_getElem.mp hmem
  have hshard : group.shards.getD i none = some shard := by
    rw [getD_eq_getElem?_getD, getElem?_eq_getElem hi, hget]
    rfl
  by_cases hid : i < d
  · rw [(h.shards i shard hshard).2, slotShard_data ds hid, ← groupPayloads_getD ds hid]
    apply le_longestRow
    rw [getD_eq_getElem?_getD, getElem?_eq_getElem (by omega)]
    exact getElem_mem _
  · exact Nat.le_of_eq (hrow i shard hshard (by omega))

theorem present_map (shards : List (Option (List Byte))) (f : List Byte -> List Byte) :
    (Fec.present (shards.map fun shard => shard.map f)).length = (Fec.present shards).length := by
  rw [present_length, present_length, countP_map]
  apply countP_congr
  intro shard _
  cases shard <;> simp

/-- A full group with a row missing decodes to the sender's rows. -/
theorem Holds.decode {ds handed : List (List Byte)} (hg : Fec.Generates d p r fec)
    (h : Holds fec d p g ds handed group) (hcount : d ≤ group.receivedCount)
    (hmissing : isMissing group.shards i) (hi : i < d) :
    d * g + d ≤ ds.length ∧
    exists decoded,
      fec.decode (group.shards.map fun shard =>
        shard.map (Fec.zeroExtend (Fec.blockSize group.shards))) = some (true, decoded) ∧
      forall k, k < d -> decoded.getD k none =
        some (Fec.zeroExtend (Fec.blockSize group.shards) (rsRow (ds.getD (d * g + k) []))) := by
  rw [h.count] at hcount
  obtain ⟨k, parity, hk, hkt, hparity⟩ := exists_parity h.length hmissing hi hcount
  have hfull : d * g + d ≤ ds.length := by
    have hout := slot_parity_le hg.data_pos (h.shards k parity hparity).1
      (by rw [slot_mod _ hkt]; omega)
    rw [slot_div _ hkt] at hout
    exact hout
  have hsize := h.blockSize hg hfull hk hparity
  have hlen := groupPayloads_length hfull
  have hblock := paddedRows_block (groupPayloads d ds g)
  rw [hlen] at hblock
  have hpos : 1 ≤ longestRow (groupPayloads d ds g) := by
    have hmem : (groupPayloads d ds g).getD 0 [] ∈ groupPayloads d ds g := by
      rw [getD_eq_getElem?_getD, getElem?_eq_getElem (by omega)]
      exact getElem_mem _
    have hrow := le_longestRow hmem
    rw [rsRow_length] at hrow
    omega
  obtain ⟨decoded, hdecode, _, hrows⟩ := Fec.decode_recovers hg hblock hpos
    (by rw [length_map, h.length]) (h.fromBlock hg hfull)
    (by rw [present_map]; exact hcount)
  refine ⟨hfull, decoded, ?_, ?_⟩
  · rw [hsize]
    exact hdecode
  · intro k hk
    rw [hrows k hk, paddedRows_getD (by omega), groupPayloads_getD ds hk, hsize]

/-- All datagrams of group `g` have been handed on. -/
def Complete (d g : Nat) (ds handed : List (List Byte)) : Prop :=
  forall i, i < d -> d * g + i < ds.length ∧ ds.getD (d * g + i) [] ∈ handed

theorem getD_mem_of_lt (h : i < ds.length) :
    ds.getD i [] ∈ ds := by
  rw [getD_eq_getElem?_getD, getElem?_eq_getElem h, Option.getD_some]
  exact getElem_mem h

theorem recoveredPayloads_eq {d g n : Nat} {before decoded : List (Option (List Byte))}
    (hfits : forall x, x ∈ ds -> FitsSize x) (hfull : d * g + d ≤ ds.length)
    (hrows : forall k, k < d -> decoded.getD k none =
      some (Fec.zeroExtend n (rsRow (ds.getD (d * g + k) [])))) :
    recoveredPayloads d before decoded =
      ((range d).filter (isMissing before)).map fun k => ds.getD (d * g + k) [] := by
  rw [← filterMap_eq_map]
  apply filterMap_congr
  intro k hk
  have hkd : k < d := mem_range.mp (mem_filter.mp hk).1
  have hmem := getD_mem_of_lt (show d * g + k < ds.length by omega)
  rw [hrows k hkd]
  exact shardPayload_rsRow_append (hfits _ hmem) _

theorem exists_missing (hlen : d ≤ shards.length) (h : ¬ (shards.take d).all Option.isSome = true) :
    exists i, i < d ∧ isMissing shards i := by
  rw [all_eq_true] at h
  obtain ⟨shard, hshard⟩ := Classical.not_forall.mp h
  obtain ⟨hmem, hnone⟩ := Classical.not_imp.mp hshard
  obtain ⟨i, hi, hget⟩ := mem_iff_getElem.mp hmem
  have hid : i < d := by
    rw [length_take] at hi
    omega
  refine ⟨i, hid, ?_⟩
  rw [getElem_take] at hget
  rw [isMissing, getD_eq_getElem?_getD, getElem?_eq_getElem (by omega), hget]
  simpa using hnone

theorem Holds.complete {ds handed : List (List Byte)} (hd : 1 ≤ d)
    (h : Holds fec d p g ds handed group) (hi : i < d) (hsome : (group.shards.getD i none).isSome) :
    d * g + i < ds.length ∧ ds.getD (d * g + i) [] ∈ handed := by
  obtain ⟨shard, hshard⟩ := Option.isSome_iff_exists.mp hsome
  exact ⟨slot_lt hd hi (h.shards i shard hshard).1, h.fed i hi hsome⟩

/-- A full group hands on datagrams of the sender and is removed; when no call fails, the
whole group has been handed on. -/
theorem recoverGroup_spec (key : UInt32) (hg : Fec.Generates d p r fec)
    (hfits : forall x, x ∈ ds -> FitsSize x) (hdata : s.dataShards = d)
    (h : Holds fec d p g ds s.handed group) (hcount : d ≤ group.receivedCount) :
    exists payloads s', (forall x, x ∈ payloads -> x ∈ ds) ∧ Fed payloads s s' ∧
      (s.recoverGroup fec key group).2 = s'.removeGroup key ∧
      ((s.recoverGroup fec key group).1 = .ok () -> Complete d g ds s'.handed) := by
  have hd := hg.data_pos
  unfold recoverGroup
  rw [hdata]
  by_cases hall : (group.shards.take d).all Option.isSome = true
  · rw [if_pos hall]
    refine ⟨[], s, by simp, Fed.refl s, rfl, ?_⟩
    intro _ i hi
    apply h.complete hd hi
    have hlt : i < group.shards.length := by
      rw [h.length]
      omega
    rw [all_eq_true] at hall
    rw [getD_eq_getElem?_getD, getElem?_eq_getElem hlt]
    apply hall
    rw [mem_iff_getElem]
    exact ⟨i, by rw [length_take]; omega, by rw [getElem_take]; rfl⟩
  · rw [if_neg hall]
    obtain ⟨i, hi, hmissing⟩ := exists_missing (by rw [h.length]; omega) hall
    obtain ⟨hfull, decoded, hdecode, hrows⟩ := h.decode hg hcount hmissing hi
    simp only [hdecode]
    rw [recoveredPayloads_eq hfits hfull hrows]
    obtain ⟨fed, hfed, hs', hok⟩ := feedAll_fed s
      (((range d).filter (isMissing group.shards)).map fun k => ds.getD (d * g + k) [])
    refine ⟨fed, _, ?_, hs', rfl, ?_⟩
    · intro x hx
      obtain ⟨k, hk, rfl⟩ := mem_map.mp (hfed.subset hx)
      have hkd : k < d := mem_range.mp (mem_filter.mp hk).1
      exact getD_mem_of_lt (by omega)
    · intro hres k hk
      rw [hs'.handed, hok hres]
      refine ⟨by omega, mem_append.mpr ?_⟩
      by_cases hkm : isMissing group.shards k
      · exact .inr (mem_map.mpr
          ⟨k, mem_filter.mpr ⟨mem_range.mpr hk, hkm⟩, rfl⟩)
      · left
        apply (h.complete hd hk _).2
        unfold isMissing at hkm
        simpa [Option.isSome_iff_ne_none] using hkm

/-!
## One packet
-/

/-- What holds of a receiving session while the sender's datagrams are `ds`. -/
structure Receives (fec : Fec) (d p : Nat) (ds : List (List Byte)) (s : KcpSession) : Prop where
  codec : s.fec = some fec
  dataShards : s.dataShards = d
  parityShards : s.parityShards = p
  groups : forall key group, s.shardGroups.lookup key = some group ->
    exists g, key.toNat = (d + p) * g ∧ Holds fec d p g ds s.handed group ∧
      group.receivedCount < d
  handed : forall x, x ∈ s.handed -> x ∈ ds

/-- Shard `i` of a group is in the table. -/
def Held (s : KcpSession) (key : UInt32) (i : Nat) : Prop :=
  exists group, s.shardGroups.lookup key = some group ∧ (group.shards.getD i none).isSome

theorem Receives.setGroup (h : Receives fec d p ds s) (hkey : key.toNat = (d + p) * g)
    (hholds : Holds fec d p g ds s.handed group) (hcount : group.receivedCount < d) :
    Receives fec d p ds (s.setGroup key group) where
  codec := h.codec
  dataShards := h.dataShards
  parityShards := h.parityShards
  groups := by
    intro key' group' hlookup
    change (s.shardGroups.insert key group).lookup key' = some group' at hlookup
    rw [Table.lookup_insert_eq] at hlookup
    split at hlookup
    · rename_i heq
      cases hlookup
      exact ⟨g, by rw [heq, hkey], hholds, hcount⟩
    · exact h.groups key' group' hlookup
  handed := h.handed

theorem Receives.fed {ds payloads : List (List Byte)} {s s' : KcpSession}
    (h : Receives fec d p ds s) (hs' : Fed payloads s s')
    (hpayloads : forall x, x ∈ payloads -> x ∈ ds) : Receives fec d p ds s' where
  codec := hs'.fec.trans h.codec
  dataShards := hs'.dataShards.trans h.dataShards
  parityShards := hs'.parityShards.trans h.parityShards
  groups := by
    intro key group hlookup
    rw [hs'.shardGroups] at hlookup
    obtain ⟨g, hkey, hholds, hcount⟩ := h.groups key group hlookup
    refine ⟨g, hkey, hholds.handOn ?_, hcount⟩
    rw [hs'.handed]
    exact subset_append_left _ _
  handed := by
    intro x hx
    rw [hs'.handed] at hx
    rcases mem_append.mp hx with hx | hx
    · exact h.handed x hx
    · exact hpayloads x hx

theorem Receives.removeGroup {ds payloads : List (List Byte)} {s s' : KcpSession}
    (h : Receives fec d p ds s) (hs' : Fed payloads (s.setGroup key group) s')
    (hpayloads : forall x, x ∈ payloads -> x ∈ ds) :
    Receives fec d p ds (s'.removeGroup key) := by
  have hfed : Fed payloads s { s' with shardGroups := s.shardGroups } :=
    ⟨hs'.fec, hs'.dataShards, hs'.parityShards, rfl, hs'.handed⟩
  have hreceives := h.fed hfed hpayloads
  refine ⟨hreceives.codec, hreceives.dataShards, hreceives.parityShards, ?_, hreceives.handed⟩
  intro key' group' hlookup
  apply hreceives.groups key' group'
  change (s'.shardGroups.erase key).lookup key' = some group' at hlookup
  rw [hs'.shardGroups] at hlookup
  change ((s.shardGroups.insert key group).erase key).lookup key' = some group' at hlookup
  rw [Table.lookup_erase_eq, Table.lookup_insert_eq] at hlookup
  by_cases hk : key' = key
  · rw [if_pos hk] at hlookup
    cases hlookup
  · rw [if_neg hk, if_neg hk] at hlookup
    exact hlookup

theorem openGroup_holds (hd : 1 ≤ d) (h : Receives fec d p ds s) (hkey : key.toNat = (d + p) * g)
    (now : Nat) :
    Holds fec d p g ds s.handed (s.openGroup (d + p) now key) ∧
      (s.openGroup (d + p) now key).receivedCount < d ∧
      forall i, Held s key i -> ((s.openGroup (d + p) now key).shards.getD i none).isSome := by
  unfold openGroup
  cases hlookup : s.shardGroups.lookup key with
  | none =>
    have hlen : (emptyGroup (d + p) now).shards.length = d + p := by simp [emptyGroup]
    rw [Option.getD_none, if_neg (by rw [hlen]; simp)]
    have hempty := emptyGroup_holds fec d p g now ds s.handed
    refine ⟨⟨hempty.length, hempty.count, hempty.shards, hempty.fed⟩, ?_, ?_⟩
    · change 0 < d
      omega
    · rintro i ⟨group, hgroup, _⟩
      rw [hlookup] at hgroup
      cases hgroup
  | some group =>
    obtain ⟨g', hkey', hholds, hcount⟩ := h.groups key group hlookup
    have hsame : g' = g := by
      apply Nat.eq_of_mul_eq_mul_left (show 0 < d + p by omega)
      rw [← hkey', hkey]
    subst hsame
    rw [Option.getD_some, if_neg (by rw [hholds.length]; simp)]
    refine ⟨⟨hholds.length, hholds.count, hholds.shards, hholds.fed⟩, hcount, ?_⟩
    rintro i ⟨group', hgroup', hsome⟩
    rw [hlookup] at hgroup'
    cases hgroup'
    exact hsome

/-- A data shard that is new is fed at once. -/
theorem feedData_spec (fec : Fec) {d p j : Nat} (s : KcpSession) (hd : 1 ≤ d)
    (hfits : forall x, x ∈ ds -> FitsSize x) (hj : j < packetCount d p ds.length)
    (group : ShardGroup) :
    exists payloads,
      Fed payloads s (s.feedData (slotType d p j) group (j % (d + p))
        (slotShard fec d p ds j)).2 ∧
      (forall x, x ∈ payloads -> x ∈ ds) ∧
      (j % (d + p) < d -> (group.shards.getD (j % (d + p)) none).isNone ->
        ds.getD (d * (j / (d + p)) + j % (d + p)) [] ∈ payloads) := by
  unfold feedData
  by_cases hdata : j % (d + p) < d
  · have hmem := getD_mem_of_lt (slot_data_lt hd hj hdata)
    have htype : slotType d p j = typeData := if_pos hdata
    have hshard : slotShard fec d p ds j =
        rsRow (ds.getD (d * (j / (d + p)) + j % (d + p)) []) := if_pos hdata
    rw [htype, hshard, shardPayload_rsRow (hfits _ hmem)]
    split
    · refine ⟨_, feed_fed s _, ?_, ?_⟩
      · intro x hx
        rw [mem_singleton.mp hx]
        exact hmem
      · intro _ _
        exact mem_singleton.mpr rfl
    · rename_i hskip
      refine ⟨[], Fed.refl s, by simp, ?_⟩
      intro _ hnone
      exact absurd ⟨rfl, hnone⟩ hskip
  · have htype : slotType d p j = typeParity := if_neg hdata
    have hne : ¬ (typeParity = typeData ∧ isMissing group.shards (j % (d + p)) = true) := by
      rintro ⟨hfalse, _⟩
      revert hfalse
      decide
    rw [htype, if_neg hne]
    exact ⟨[], Fed.refl s, by simp, fun h => absurd h hdata⟩

/-- What one packet of the sender does to the receiver. -/
structure Absorbed (fec : Fec) (d p : Nat) (ds : List (List Byte)) (j : Nat) (s : KcpSession)
    (out : Except SessionError Unit × KcpSession) : Prop where
  receives : Receives fec d p ds out.2
  handed : s.handed ⊆ out.2.handed
  others : forall key, key ≠ groupKey (d + p) (UInt32.ofNat j) ->
    out.2.shardGroups.lookup key = s.shardGroups.lookup key
  collects : out.1 = .ok () -> Complete d (j / (d + p)) ds out.2.handed ∨
    forall i, i = j % (d + p) ∨ Held s (groupKey (d + p) (UInt32.ofNat j)) i ->
      Held out.2 (groupKey (d + p) (UInt32.ofNat j)) i

theorem inputShard_absorbed {d p j : Nat} (hg : Fec.Generates d p r fec)
    (hfits : forall x, x ∈ ds -> FitsSize x) (h : Receives fec d p ds s)
    (hj : j < packetCount d p ds.length) (hj32 : j < 4294967296) (now : Nat) :
    Absorbed fec d p ds j s
      (s.inputShard fec (d + p) now (UInt32.ofNat j) (slotType d p j)
        (slotShard fec d p ds j)) := by
  have hd := hg.data_pos
  have htotal := hg.total_le
  have hjeq := Nat.div_add_mod j (d + p)
  have hilt := Nat.mod_lt j (show 0 < d + p by omega)
  obtain ⟨hkey, hindex⟩ := slot_of_seqid (show d + p < 4294967296 by omega) hj32
  generalize hkeyeq : groupKey (d + p) (UInt32.ofNat j) = key at hkey
  obtain ⟨hopen, hfew, hkeeps⟩ := openGroup_holds hd h hkey now
  unfold inputShard
  simp only [hkeyeq, hindex]
  generalize hgroup : s.openGroup (d + p) now key = group at hopen hfew hkeeps
  have hset := h.setGroup hkey hopen hfew
  obtain ⟨payloads, hfed, hpayloads, hnew⟩ :=
    feedData_spec fec (s.setGroup key group) hd hfits hj group
  have hfirst := hset.fed hfed hpayloads
  generalize hout : (s.setGroup key group).feedData (slotType d p j) group (j % (d + p))
    (slotShard fec d p ds j) = out at hfed hfirst
  rcases out with ⟨res, s₁⟩
  have hothers : forall key', key' ≠ key ->
      s₁.shardGroups.lookup key' = s.shardGroups.lookup key' := by
    intro key' hne
    rw [hfed.shardGroups]
    exact (Table.lookup_insert_eq _ _ _ _).trans (if_neg hne)
  have hsub : s.handed ⊆ s₁.handed := by
    rw [hfed.handed]
    exact subset_append_left _ _
  cases res with
  | error e =>
    refine ⟨hfirst, hsub, ?_, ?_⟩
    · rw [hkeyeq]
      exact hothers
    · intro hok
      cases hok
  | ok u =>
    have hshard : slotShard fec d p ds j =
        slotShard fec d p ds ((d + p) * (j / (d + p)) + j % (d + p)) := by
      rw [hjeq]
    have hstored : Holds fec d p (j / (d + p)) ds s₁.handed
        (storeShard group (j % (d + p)) (slotShard fec d p ds j)) := by
      rw [hshard]
      apply storeShard_holds (hopen.handOn hsub) hilt (by rw [hjeq]; exact hj)
      intro hi hnone
      rw [hfed.handed]
      exact mem_append_right _ (hnew hi hnone)
    have hlt : j % (d + p) < group.shards.length := by
      rw [hopen.length]
      exact hilt
    have hkept := fun i h =>
      storeShard_isSome hlt (slotShard fec d p ds j) (k := i) h
    generalize storeShard group (j % (d + p)) (slotShard fec d p ds j) = stored
      at hstored hkept
    have hdata : (s₁.setGroup key stored).dataShards = d := hfirst.dataShards
    simp only [andThen_ok]
    rw [hdata]
    split
    · rename_i hfull
      obtain ⟨more, s', hmore, hs', hremoved, hcomplete⟩ :=
        recoverGroup_spec key hg hfits hdata hstored hfull
      refine ⟨?_, ?_, ?_, ?_⟩
      · rw [hremoved]
        exact hfirst.removeGroup hs' hmore
      · rw [hremoved]
        change s.handed ⊆ s'.handed
        rw [hs'.handed]
        exact fun x hx => mem_append_left _ (hsub hx)
      · intro key' hne
        rw [hkeyeq] at hne
        rw [hremoved, ← hothers key' hne]
        change (s'.shardGroups.erase key).lookup key' = _
        rw [hs'.shardGroups, Table.lookup_erase_eq, if_neg hne]
        exact (Table.lookup_insert_eq _ _ _ _).trans (if_neg hne)
      · intro hok
        left
        rw [hremoved]
        exact hcomplete hok
    · rename_i hopenStill
      refine ⟨hfirst.setGroup hkey hstored (by omega), hsub, ?_, ?_⟩
      · intro key' hne
        rw [hkeyeq] at hne
        rw [← hothers key' hne]
        exact (Table.lookup_insert_eq _ _ _ _).trans (if_neg hne)
      · intro _
        right
        rw [hkeyeq]
        intro i hi
        refine ⟨stored, (Table.lookup_insert_eq _ _ _ _).trans (if_pos rfl), ?_⟩
        exact hkept i (hi.imp id (hkeeps i))

theorem pruneOldGroups_receives (h : Receives fec d p ds s) (now : Nat) :
    Receives fec d p ds (s.pruneOldGroups now) :=
  ⟨h.codec, h.dataShards, h.parityShards,
    fun key group hlookup => h.groups key group (lookup_pruneOldGroups hlookup), h.handed⟩

theorem input_absorbed {d p j : Nat} (hg : Fec.Generates d p r fec)
    (hfits : forall x, x ∈ ds -> FitsSize x) (h : Receives fec d p ds s)
    (hj : j < packetCount d p ds.length) (hj32 : j < 4294967296) (pruneMs nowMs : Nat) :
    Absorbed fec d p ds j (s.pruneOldGroups pruneMs)
      (s.input pruneMs nowMs (slotPacket fec d p ds j)) := by
  have hd := hg.data_pos
  have htype : slotType d p j = typeData ∨ slotType d p j = typeParity := by
    unfold slotType
    split
    · exact .inl rfl
    · exact .inr rfl
  have htotal : s.dataShards + s.parityShards = d + p := by
    rw [h.dataShards, h.parityShards]
  rw [slotPacket, input_wirePacket pruneMs nowMs _ h.codec htype (by omega), htotal]
  exact inputShard_absorbed hg hfits (pruneOldGroups_receives h pruneMs) hj hj32 nowMs

end KcpSession
end FrpRs
