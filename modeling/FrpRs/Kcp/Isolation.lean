import FrpRs.Kcp.Socket

/-!
# Isolation of KCP sessions

Sessions are kept apart by conversation id and address, but a write finds its session by
the conversation id alone.  The two agree for as long as no two addresses share a
conversation id in the table; the first step that makes them share one, or that writes to
a stream whose id another address has taken over, sends bytes astray or loses them.
-/

namespace FrpRs

open List Bytes
open Udp (SocketAddr)

namespace KcpSocket

/-!
## Sharing a conversation id
-/

def Stored (s : KcpSocket) (key : SessionKey) : Prop :=
  (s.sessions.lookup key).isSome = true

def Alone (s : KcpSocket) (key : SessionKey) : Prop :=
  forall addr, s.Stored (key.1, addr) -> addr = key.2

def opens (s : KcpSocket) : DriverEvent -> Option SessionKey
  | .recv data src clock =>
    match s.route data src with
    | .newPeer key => (s.vet key data clock).2.map fun _ => key
    | _ => none
  | .register key _ => some key
  | _ => none

def concerns (s : KcpSocket) : DriverEvent -> Option SessionKey
  | .write stream _ _ => some stream
  | e => s.opens e

def Unshared (s : KcpSocket) (e : DriverEvent) : Prop :=
  forall key, s.concerns e = some key -> s.Alone key

/-- What one step owes: a write goes to the session of its own stream and to no other,
every packet goes to the peer of its session, and afterwards the writes of every stored
session still reach it. -/
structure Isolates (s : KcpSocket) (e : DriverEvent) : Prop where
  write_own : forall stream nowMs data, e = .write stream nowMs data ->
    s.target stream.1 = if (s.sessions.lookup stream).isSome then some stream else none
  sent_own : forall p, p ∈ (s.step e).sent -> p.peer = p.session.2
  reaches : forall key, (s.step e).Stored key -> (s.step e).target key.1 = some key

/-- The index and the table agree, and unaccepted sessions are stored. -/
structure Indexed (s : KcpSocket) : Prop where
  stored_iff : forall conv addr, s.Stored (conv, addr) ↔ s.convIndex.lookup conv = some addr
  created : forall key, (s.sessionCreatedAt.lookup key).isSome = true -> s.Stored key
  sent_own : forall p, p ∈ s.sent -> p.peer = p.session.2

theorem new_indexed (config : KcpConfig) : Indexed (new config) where
  stored_iff := by
    intro conv addr
    constructor
    · intro h
      cases h
    · intro h
      cases h
  created := by
    intro key h
    cases h
  sent_own := by
    intro p h
    cases h

variable {s : KcpSocket}

theorem target_eq (hs : Indexed s) (conv : UInt32) :
    s.target conv = (s.convIndex.lookup conv).map fun addr => (conv, addr) := by
  rw [target]
  cases hindex : s.convIndex.lookup conv with
  | none => rfl
  | some addr =>
    have hstored : s.Stored (conv, addr) := (hs.stored_iff conv addr).mpr hindex
    exact if_pos hstored

variable {key : SessionKey}

theorem Indexed.target_of_stored (hs : Indexed s) (h : s.Stored key) :
    s.target key.1 = some key := by
  rw [target_eq hs, (hs.stored_iff key.1 key.2).mp h]
  rfl

theorem Indexed.alone (hs : Indexed s) (h : s.Stored key) :
    s.Alone key := by
  intro addr haddr
  have hkey := (hs.stored_iff key.1 key.2).mp h
  rw [(hs.stored_iff key.1 addr).mp haddr] at hkey
  exact Option.some.inj hkey

/-!
## Removals
-/

/-- Nothing that the index speaks of has changed. -/
structure SameKeys (s s' : KcpSocket) : Prop where
  stored_iff : forall key, s'.Stored key ↔ s.Stored key
  convIndex_eq : s'.convIndex = s.convIndex
  created_eq : s'.sessionCreatedAt = s.sessionCreatedAt

theorem SameKeys.indexed {s s' : KcpSocket} (h : SameKeys s s') (hs : Indexed s)
    (hsent : forall p, p ∈ s'.sent -> p.peer = p.session.2) : Indexed s' where
  stored_iff := by
    intro conv addr
    rw [h.stored_iff, h.convIndex_eq]
    exact hs.stored_iff conv addr
  created := by
    intro key hkey
    rw [h.created_eq] at hkey
    exact (h.stored_iff key).mpr (hs.created key hkey)
  sent_own := hsent

theorem removeSession_sessions (s : KcpSocket) (key : SessionKey) :
    (s.removeSession key).sessions = s.sessions.erase key := by
  rw [removeSession]
  split
  · rfl
  · rfl

theorem removeSession_convIndex (s : KcpSocket) (key : SessionKey) :
    (s.removeSession key).convIndex = s.convIndex.erase key.1 := by
  rw [removeSession]
  split
  · rfl
  · rfl

theorem removeSession_created (s : KcpSocket) (key : SessionKey) :
    (s.removeSession key).sessionCreatedAt = s.sessionCreatedAt.erase key := by
  rw [removeSession]
  split
  · rfl
  · rfl

theorem removeSession_sent (s : KcpSocket) (key : SessionKey) :
    (s.removeSession key).sent = s.sent := by
  rw [removeSession]
  split
  · rfl
  · rfl

theorem stored_of_erase {s s' : KcpSocket} {key : SessionKey}
    (h : s'.sessions = s.sessions.erase key) (a : SessionKey) :
    s'.Stored a ↔ a ≠ key ∧ s.Stored a := by
  rw [Stored, Stored, h, Table.lookup_erase_eq]
  split
  · rename_i hsame
    simp [hsame]
  · rename_i hother
    simp [hother]

theorem Indexed.erase {s s' : KcpSocket} (hs : Indexed s) (halone : s.Alone key)
    (hsessions : s'.sessions = s.sessions.erase key)
    (hindex : s'.convIndex = s.convIndex.erase key.1)
    (hcreated : forall a, (s'.sessionCreatedAt.lookup a).isSome = true ->
      a ≠ key ∧ (s.sessionCreatedAt.lookup a).isSome = true) (hsent : s'.sent = s.sent) :
    Indexed s' where
  stored_iff := by
    intro conv addr
    rw [stored_of_erase hsessions, hindex, Table.lookup_erase_eq]
    split
    · rename_i hconv
      constructor
      · rintro ⟨hne, hstored⟩
        rw [hconv] at hne hstored
        rw [halone addr hstored] at hne
        exact absurd rfl hne
      · intro h
        cases h
    · rename_i hconv
      rw [← hs.stored_iff]
      constructor
      · exact fun h => h.2
      · intro h
        exact ⟨fun hkey => hconv (congrArg Prod.fst hkey), h⟩
  created := by
    intro a ha
    obtain ⟨hne, hold⟩ := hcreated a ha
    exact (stored_of_erase hsessions a).mpr ⟨hne, hs.created a hold⟩
  sent_own := by
    rw [hsent]
    exact hs.sent_own

theorem Indexed.removeSession (hs : Indexed s) (halone : s.Alone key) :
    Indexed (s.removeSession key) := by
  apply hs.erase halone (s.removeSession_sessions key) (s.removeSession_convIndex key) _
    (s.removeSession_sent key)
  intro a ha
  rw [removeSession_created, Table.lookup_erase_eq] at ha
  split at ha
  · cases ha
  · rename_i hne
    exact ⟨hne, ha⟩

theorem removeSession_alone {key other : SessionKey} (h : s.Alone other) :
    (s.removeSession key).Alone other := by
  intro addr haddr
  exact h addr ((stored_of_erase (s.removeSession_sessions key) _).mp haddr).2

theorem Indexed.drainToRemove (hs : Indexed s) {toRemove : List SessionKey}
    (halone : forall key, key ∈ toRemove -> s.Alone key) : Indexed (s.drainToRemove toRemove) := by
  induction toRemove generalizing s with
  | nil =>
    exact hs
  | cons key rest ih =>
    apply ih (hs.removeSession (halone key mem_cons_self))
    intro other hother
    exact removeSession_alone (halone other (mem_cons_of_mem key hother))

/-!
## The tick
-/

theorem stored_of_mem {e : Sigma fun _ : SessionKey => KcpSession} (h : e ∈ s.sessions.entries) :
    s.Stored e.1 := by
  have hlookup : s.sessions.lookup e.1 = some e.2 := AList.mem_lookup_iff.mpr h
  rw [Stored, hlookup]
  rfl

theorem sendAll_own {packets : List (List Byte)} {p : Outgoing} (h : p ∈ sendAll key packets) :
    p.peer = p.session.2 := by
  obtain ⟨packet, -, hp⟩ := mem_map.mp h
  rw [← hp]

theorem sent_append (hs : Indexed s) {packets : List Outgoing}
    (h : forall p, p ∈ packets -> p.peer = p.session.2) :
    forall p, p ∈ s.sent ++ packets -> p.peer = p.session.2 := by
  intro p hp
  cases mem_append.mp hp with
  | inl hold => exact hs.sent_own p hold
  | inr hnew => exact h p hnew

theorem mapValues_sameKeys {s s' : KcpSocket} (f : SessionKey -> KcpSession -> KcpSession)
    (hsessions : s'.sessions = s.sessions.mapValues f) (hindex : s'.convIndex = s.convIndex)
    (hcreated : s'.sessionCreatedAt = s.sessionCreatedAt) : SameKeys s s' where
  stored_iff := by
    intro key
    rw [Stored, Stored, hsessions, Table.lookup_mapValues, Option.isSome_map]
  convIndex_eq := hindex
  created_eq := hcreated

theorem Indexed.updateSessions (hs : Indexed s) (nowMs : UInt32) :
    Indexed (s.updateSessions nowMs) := by
  apply Indexed.drainToRemove
  · refine SameKeys.indexed (s := s) (mapValues_sameKeys (tickedSession nowMs) rfl rfl rfl) hs ?_
    apply sent_append hs
    intro p hp
    obtain ⟨e, -, hsent⟩ := mem_flatMap.mp hp
    exact sendAll_own hsent
  · intro key hkey addr haddr
    obtain ⟨e, he, hkey⟩ := mem_map.mp hkey
    have hstored : s.Stored key := by
      rw [← hkey]
      exact stored_of_mem (mem_filter.mp he).1
    have hsame := @mapValues_sameKeys s
      { s with sessions := s.sessions.mapValues (tickedSession nowMs) } (tickedSession nowMs)
      rfl rfl rfl
    exact hs.alone hstored addr ((hsame.stored_iff _).mp haddr)

theorem Indexed.expireUnaccepted (hs : Indexed s) (nowMs : UInt32) :
    Indexed (s.expireUnaccepted nowMs) := by
  apply hs.drainToRemove
  intro key hkey
  obtain ⟨e, he, hkey⟩ := mem_map.mp hkey
  have hlookup : s.sessionCreatedAt.lookup e.1 = some e.2 :=
    AList.mem_lookup_iff.mpr (mem_filter.mp he).1
  apply hs.alone
  apply hs.created
  rw [← hkey, hlookup]
  rfl

theorem Indexed.reapAcceptedIdleSessions (hs : Indexed s) (nowMs : UInt32) :
    Indexed (s.reapAcceptedIdleSessions nowMs) := by
  apply hs.drainToRemove
  intro key hkey
  obtain ⟨e, he, hkey⟩ := mem_map.mp hkey
  apply hs.alone
  rw [← hkey]
  exact stored_of_mem (mem_filter.mp he).1

theorem Indexed.trimIpLogs (hs : Indexed s) (nowMs : UInt32) :
    Indexed (s.trimIpLogs nowMs) :=
  ⟨hs.stored_iff, hs.created, hs.sent_own⟩

theorem Indexed.tick (hs : Indexed s) (nowMs : UInt32) :
    Indexed (s.tick nowMs) :=
  (((hs.updateSessions nowMs).expireUnaccepted nowMs).reapAcceptedIdleSessions nowMs).trimIpLogs
    nowMs

/-!
## Writes and datagrams
-/

theorem stored_setSession (s : KcpSocket) (key : SessionKey) (session : KcpSession)
    (a : SessionKey) : (s.setSession key session).Stored a ↔ a = key ∨ s.Stored a := by
  rw [Stored, setSession, Table.lookup_insert_eq]
  split
  · rename_i hsame
    simp [hsame]
  · rename_i hother
    simp [hother, Stored]

theorem setSession_sameKeys (h : s.Stored key) (session : KcpSession) :
    SameKeys s (s.setSession key session) where
  stored_iff := by
    intro a
    rw [stored_setSession]
    constructor
    · intro ha
      cases ha with
      | inl hsame =>
        rw [hsame]
        exact h
      | inr hold => exact hold
    · exact .inr
  convIndex_eq := rfl
  created_eq := rfl

variable {session : KcpSession}

theorem stored_of_lookup (h : s.sessions.lookup key = some session) :
    s.Stored key := by
  rw [Stored, h]
  rfl

theorem Indexed.setSession (hs : Indexed s) (h : s.Stored key) (session : KcpSession) :
    Indexed (s.setSession key session) :=
  (setSession_sameKeys h session).indexed hs hs.sent_own

theorem Indexed.flushSessionOutput (hs : Indexed s) (nowMs : UInt32) (key : SessionKey) :
    Indexed (s.flushSessionOutput nowMs key) := by
  rw [KcpSocket.flushSessionOutput]
  split
  · exact hs
  · rename_i session hsession
    have hstored := stored_of_lookup hsession
    split
    · exact hs.setSession hstored _
    · rename_i packets flushed _
      have hset := setSession_sameKeys hstored flushed
      exact SameKeys.indexed ⟨hset.stored_iff, hset.convIndex_eq, hset.created_eq⟩ hs
        (sent_append hs fun p => sendAll_own)

theorem Indexed.write (hs : Indexed s) (conv nowMs : UInt32) (data : List Byte) :
    Indexed (s.write conv nowMs data) := by
  rw [KcpSocket.write]
  split
  · exact hs
  · split
    · exact hs
    · rename_i session hsession
      have hstored := stored_of_lookup hsession
      split
      · exact hs.setSession hstored _
      · exact (hs.setSession hstored _).flushSessionOutput nowMs _

theorem Indexed.flush (hs : Indexed s) (conv nowMs : UInt32) :
    Indexed (s.flush conv nowMs) := by
  rw [KcpSocket.flush]
  split
  · exact hs
  · exact hs.flushSessionOutput nowMs _

theorem Indexed.updateSession (hs : Indexed s) (key : SessionKey) (f : KcpSession -> KcpSession) :
    Indexed (s.updateSession key f) := by
  rw [KcpSocket.updateSession]
  split
  · exact hs
  · rename_i session hsession
    exact hs.setSession (stored_of_lookup hsession) _

theorem Indexed.deliver (hs : Indexed s) (h : s.sessions.lookup key = some session)
    (clock : RecvClock) (stamp : Bool) (data : List Byte) :
    Indexed (s.deliver key clock stamp data session) := by
  have hstored := stored_of_lookup h
  apply (hs.setSession hstored _).drainToRemove
  intro other hother
  split at hother
  · rw [mem_singleton.mp hother]
    apply (hs.setSession hstored _).alone
    exact (stored_setSession s key _ key).mpr (.inl rfl)
  · cases hother

/-!
## New sessions
-/

theorem vet_frame (s : KcpSocket) (key : SessionKey) (data : List Byte) (clock : RecvClock) :
    (s.vet key data clock).1.sessions = s.sessions
      ∧ (s.vet key data clock).1.convIndex = s.convIndex
      ∧ (s.vet key data clock).1.sessionCreatedAt = s.sessionCreatedAt
      ∧ (s.vet key data clock).1.sent = s.sent := by
  rw [vet]
  split
  · exact ⟨rfl, rfl, rfl, rfl⟩
  · split
    · exact ⟨rfl, rfl, rfl, rfl⟩
    · simp only
      split
      · exact ⟨rfl, rfl, rfl, rfl⟩
      · split
        · exact ⟨rfl, rfl, rfl, rfl⟩
        · split
          · exact ⟨rfl, rfl, rfl, rfl⟩
          · exact ⟨rfl, rfl, rfl, rfl⟩

theorem stored_congr {s s' : KcpSocket} (h : s'.sessions = s.sessions) (key : SessionKey) :
    s'.Stored key ↔ s.Stored key := by
  rw [Stored, Stored, h]

theorem vet_sameKeys (s : KcpSocket) (key : SessionKey) (data : List Byte) (clock : RecvClock) :
    SameKeys s (s.vet key data clock).1 where
  stored_iff := stored_congr (s.vet_frame key data clock).1
  convIndex_eq := (s.vet_frame key data clock).2.1
  created_eq := (s.vet_frame key data clock).2.2.1

theorem Indexed.vet (hs : Indexed s) (key : SessionKey) (data : List Byte) (clock : RecvClock) :
    Indexed (s.vet key data clock).1 := by
  apply (s.vet_sameKeys key data clock).indexed hs
  rw [(s.vet_frame key data clock).2.2.2]
  exact hs.sent_own

theorem SameKeys.alone {s s' : KcpSocket} (h : SameKeys s s') :
    s'.Alone key ↔ s.Alone key := by
  simp only [Alone, h.stored_iff]

theorem stored_store (s : KcpSocket) (key : SessionKey) (session : KcpSession)
    (a : SessionKey) : (s.store key session).Stored a ↔ a = key ∨ s.Stored a :=
  s.stored_setSession key session a

theorem Indexed.store (hs : Indexed s) (halone : s.Alone key) (session : KcpSession) :
    Indexed (s.store key session) where
  stored_iff := by
    intro conv addr
    rw [stored_store, KcpSocket.store, Table.lookup_insert_eq]
    split
    · rename_i hconv
      constructor
      · intro h
        cases h with
        | inl hkey => rw [← hkey]
        | inr hold =>
          rw [hconv] at hold
          rw [halone addr hold]
      · intro h
        cases h
        exact .inl (Prod.ext hconv rfl)
    · rename_i hconv
      rw [← hs.stored_iff]
      constructor
      · intro h
        cases h with
        | inl hkey => exact absurd (congrArg Prod.fst hkey) hconv
        | inr hold => exact hold
      · exact .inr
  created := by
    intro a ha
    exact (s.stored_store key session a).mpr (.inr (hs.created a ha))
  sent_own := hs.sent_own

theorem Indexed.rejectFull (hs : Indexed s) (halone : s.Alone key) (habsent : ¬ s.Stored key) :
    Indexed (s.rejectFull key) := by
  refine hs.erase halone rfl rfl ?_ rfl
  intro a ha
  refine ⟨?_, ha⟩
  intro hsame
  rw [hsame] at ha
  exact habsent (hs.created key ha)

theorem Indexed.enqueue (hs : Indexed s) (halone : s.Alone key) (habsent : ¬ s.Stored key)
    (createdMs : UInt32) (session : KcpSession) : Indexed (s.enqueue key createdMs session) := by
  rw [KcpSocket.enqueue]
  split
  · exact hs.rejectFull halone habsent
  · have hstore := hs.store halone (if s.accept.closed then closeChannel session else session)
    refine ⟨hstore.stored_iff, ?_, hs.sent_own⟩
    intro a ha
    apply (s.stored_store key _ a).mpr
    rw [Table.lookup_insert_eq] at ha
    split at ha
    · rename_i hsame
      exact .inl hsame
    · exact .inr (hs.created a ha)

theorem route_session {data : List Byte} {src : SocketAddr} {stamp : Bool}
    (h : s.route data src = .session key stamp session) :
    s.sessions.lookup key = some session := by
  rw [route] at h
  split at h
  · rename_i found hfound
    cases h
    exact hfound
  · split at h
    · split at h
      · rename_i found hfound
        cases h
        exact hfound
      · cases h
    · split at h
      · cases h
      · cases h

theorem route_newPeer {data : List Byte} {src : SocketAddr} (h : s.route data src = .newPeer key) :
    ¬ s.Stored key := by
  rw [route] at h
  split at h
  · cases h
  · rename_i hmissing
    split at h
    · split at h
      · cases h
      · cases h
    · split at h
      · cases h
        rw [Stored, hmissing]
        exact Bool.false_ne_true
      · cases h

theorem Indexed.recv (hs : Indexed s) (data : List Byte) (src : SocketAddr) (clock : RecvClock)
    (hok : s.Unshared (.recv data src clock)) :
    Indexed (s.recv data src clock) := by
  rw [KcpSocket.recv]
  cases hroute : s.route data src with
  | session key stamp session =>
    exact hs.deliver (route_session hroute) clock stamp data
  | dropped =>
    exact hs
  | newPeer key =>
    have hvet := hs.vet key data clock
    have hsame := s.vet_sameKeys key data clock
    simp only [KcpSocket.acceptPeer]
    cases hresult : s.vet key data clock with
    | mk vetted passed =>
      rw [hresult] at hvet hsame
      cases passed with
      | none => exact hvet
      | some session =>
        have halone : s.Alone key := by
          apply hok
          simp only [concerns, opens, hroute, hresult, Option.map_some]
        apply hvet.enqueue (hsame.alone.mpr halone)
        intro hstored
        exact route_newPeer hroute ((hsame.stored_iff key).mp hstored)

/-!
## Every step
-/

variable {e : DriverEvent}

theorem Indexed.step (hs : Indexed s) (hok : s.Unshared e) :
    Indexed (s.step e) := by
  cases e with
  | tick nowMs => exact hs.tick nowMs
  | write stream nowMs data => exact hs.write stream.1 nowMs data
  | flush stream nowMs => exact hs.flush stream.1 nowMs
  | recv data src clock => exact hs.recv data src clock hok
  | register key session => exact hs.store (hok key rfl) session
  | acceptNotify key =>
    refine ⟨hs.stored_iff, ?_, hs.sent_own⟩
    intro a ha
    apply hs.created a
    simp only [KcpSocket.step, Table.lookup_erase_eq] at ha
    split at ha
    · cases ha
    · exact ha
  | acceptStream => exact ⟨hs.stored_iff, hs.created, hs.sent_own⟩
  | closeListener =>
    exact SameKeys.indexed (s := s)
      (mapValues_sameKeys (closeQueued s.accept.streams) rfl rfl rfl) hs hs.sent_own
  | readFrame key => exact hs.updateSession key _
  | dropStream key => exact hs.updateSession key _

theorem write_own_iff (hs : Indexed s) (stream : SessionKey) :
    s.target stream.1 = (if (s.sessions.lookup stream).isSome then some stream else none) ↔
      s.Alone stream := by
  constructor
  · intro htarget addr haddr
    have hother := hs.target_of_stored haddr
    rw [htarget] at hother
    split at hother
    · exact (congrArg Prod.snd (Option.some.inj hother)).symm
    · cases hother
  · intro halone
    split
    · rename_i hstored
      exact hs.target_of_stored hstored
    · rename_i habsent
      rw [target_eq hs]
      cases hindex : s.convIndex.lookup stream.1 with
      | none => rfl
      | some addr =>
        have hstored := (hs.stored_iff stream.1 addr).mpr hindex
        rw [halone addr hstored] at hstored
        exact absurd hstored habsent

theorem index_of_target {conv : UInt32} (h : s.target conv = some key) :
    s.convIndex.lookup conv = some key.2 := by
  obtain ⟨addr, haddr, hkey⟩ := Option.bind_eq_some_iff.mp h
  split at hkey
  · cases hkey
    exact haddr
  · cases hkey

/-- What opening a session under a key does to the others with its conversation id: they
stay stored, and the index no longer leads to them. -/
structure Displaces (s s' : KcpSocket) (key : SessionKey) : Prop where
  stays : forall addr, addr ≠ key.2 -> s.Stored (key.1, addr) -> s'.Stored (key.1, addr)
  index : forall addr, s'.convIndex.lookup key.1 = some addr -> addr = key.2

theorem store_displaces (s : KcpSocket) (key : SessionKey) (session : KcpSession) :
    Displaces s (s.store key session) key where
  stays := by
    intro addr _ haddr
    exact (s.stored_store key session _).mpr (.inr haddr)
  index := by
    intro addr haddr
    rw [store, AList.lookup_insert] at haddr
    exact (Option.some.inj haddr).symm

theorem rejectFull_displaces (s : KcpSocket) (key : SessionKey) :
    Displaces s (s.rejectFull key) key where
  stays := by
    intro addr hne haddr
    apply (@stored_of_erase s (s.rejectFull key) key rfl _).mpr
    exact ⟨fun hkey => hne (congrArg Prod.snd hkey), haddr⟩
  index := by
    intro addr haddr
    rw [rejectFull, AList.lookup_erase] at haddr
    cases haddr

theorem enqueue_displaces (s : KcpSocket) (key : SessionKey) (createdMs : UInt32)
    (session : KcpSession) : Displaces s (s.enqueue key createdMs session) key := by
  rw [enqueue]
  split
  · exact s.rejectFull_displaces key
  · have h := s.store_displaces key (if s.accept.closed then closeChannel session else session)
    exact ⟨h.stays, h.index⟩

theorem step_displaces (h : s.opens e = some key) :
    Displaces s (s.step e) key := by
  cases e with
  | register registered session =>
    cases h
    exact s.store_displaces key session
  | recv data src clock =>
    simp only [opens] at h
    split at h
    · rename_i peer hroute
      have hsame := s.vet_sameKeys peer data clock
      simp only [step, recv, hroute, acceptPeer]
      cases hresult : s.vet peer data clock with
      | mk vetted passed =>
        rw [hresult] at h hsame
        cases passed with
        | none => cases h
        | some session =>
          cases h
          have hdisplaces := vetted.enqueue_displaces peer clock.createdMs session
          constructor
          · intro addr hne haddr
            exact hdisplaces.stays addr hne ((hsame.stored_iff _).mpr haddr)
          · exact hdisplaces.index
    · cases h
  | _ => cases h

theorem Isolates.unshared (hs : Indexed s) (h : Isolates s e) : s.Unshared e := by
  have hopens : forall key, s.opens e = some key -> s.Alone key := by
    intro key hkey addr haddr
    have hdisplaces := step_displaces hkey
    by_contra hne
    have hreached := h.reaches _ (hdisplaces.stays addr hne haddr)
    exact hne (hdisplaces.index addr (index_of_target hreached))
  intro key hkey
  cases e with
  | write stream nowMs data =>
    cases hkey
    exact (write_own_iff hs key).mp (h.write_own key nowMs data rfl)
  | _ => exact hopens key hkey

theorem Unshared.isolates (hs : Indexed s) (h : s.Unshared e) : Isolates s e := by
  have hnext := hs.step h
  constructor
  · intro stream nowMs data he
    rw [he] at h
    exact (write_own_iff hs stream).mpr (h stream rfl)
  · exact hnext.sent_own
  · intro key hkey
    exact hnext.target_of_stored hkey

end KcpSocket

/-- A run of the driver keeps its sessions isolated at every step exactly when no step
stores a session under a conversation id, turns one away at a full accept queue, or takes
a stream's write, while another address has a session with that id. -/
theorem kcp_sessions_isolated_iff (config : KcpConfig) (es : List DriverEvent) :
    Run.Along KcpSocket.step KcpSocket.Isolates (KcpSocket.new config) es ↔
      Run.Along KcpSocket.step KcpSocket.Unshared (KcpSocket.new config) es :=
  Run.along_congr
    (fun s e (hs : KcpSocket.Indexed s) =>
      ⟨KcpSocket.Isolates.unshared hs, KcpSocket.Unshared.isolates (e := e) hs⟩)
    (fun _ _ hs hok => hs.step hok) (KcpSocket.new_indexed config)

def plainKcpConfig : KcpConfig where
  mtu := 1350
  nodelay := true
  interval := 20
  resend := 2
  nc := true
  sndWnd := 1024
  rcvWnd := 1024
  dataShards := 0
  parityShards := 0
  stream := true

def hostAddr (d : Byte) : SocketAddr :=
  .v4 { a := 192, b := 0, c := 2, d := d } 4000

def sharedConv : List DriverEvent :=
  [ .recv ([7, 0, 0, 0, 83, 0, 128, 0] ++ replicate 16 0) (hostAddr 1) ⟨0, 0, 0, 0⟩,
    .recv ([7, 0, 0, 0, 83, 0, 128, 0] ++ replicate 16 0) (hostAddr 2) ⟨0, 0, 0, 0⟩ ]

/-- The second address takes the conversation id over, and the writes of the first
stream go to the second peer while the first session is still in the table. -/
theorem shared_conv_misdirects :
    let s := Run.run KcpSocket.step (KcpSocket.new plainKcpConfig) sharedConv
    s.Stored (7, hostAddr 1)
      ∧ s.target 7 = some (7, hostAddr 2)
      ∧ ¬ s.Isolates (.write (7, hostAddr 1) 0 [1]) := by
  intro s
  have hstored : s.Stored (7, hostAddr 1) := by
    rw [KcpSocket.Stored]
    decide +kernel
  have htarget : s.target 7 = some (7, hostAddr 2) := by
    decide +kernel
  refine ⟨hstored, htarget, ?_⟩
  intro h
  have hown := h.write_own (7, hostAddr 1) 0 [1] rfl
  split at hown
  · have haddr := congrArg (fun key => key.2.ip) (Option.some.inj hown)
    revert haddr
    decide
  · cases hown

end FrpRs
