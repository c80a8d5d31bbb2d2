import FrpRs.Data.ByteStream

/-!
# Server names in TLS greetings

`read_client_hello_prefix` and `extract_sni_from_client_hello` of
`frp-server/src/vhost/https.rs`.

The listener reads the first bytes of a connection, looks for the server name in them and
keeps them for the backend.  An index out of bounds stops the task, so that a computation
that indexes is an `Option`, `none` being the stop.
-/

namespace FrpRs
namespace Http
namespace ClientHello

open List Bytes ByteStream

/-!
## Checked indexing
-/

def u16At (bs : List Byte) (i : Nat) : Option Nat := do
  let a ← bs[i]?
  let b ← bs[i + 1]?
  some (a.toNat * 256 + b.toNat)

/-- `&bs[from..to]`. -/
def slice (bs : List Byte) (start stop : Nat) : Option (List Byte) :=
  if start ≤ stop ∧ stop ≤ bs.length then some ((bs.take stop).drop start) else none

/-!
## The reader
-/

def read (limit : Nat) : List (List Byte) -> List Byte × List (List Byte)
  | [] => ([], [])
  | c :: chunks =>
    if c.length ≤ limit then (c, chunks) else (c.take limit, c.drop limit :: chunks)

/-- The loop that reads the rest of the record into `buf[total..record_len]`. -/
def readRecord (bufLen recordLen : Nat) :
    List Byte -> List (List Byte) -> Option (List Byte × List (List Byte))
  | kept, [] => if kept.length < recordLen then
      if recordLen ≤ bufLen then some (kept, []) else none
    else some (kept, [])
  | kept, c :: chunks =>
    if kept.length < recordLen then
      if recordLen ≤ bufLen then
        if c = [] then some (kept, chunks)
        else if c.length ≤ recordLen - kept.length then
          readRecord bufLen recordLen (kept ++ c) chunks
        else some (kept ++ c.take (recordLen - kept.length),
          c.drop (recordLen - kept.length) :: chunks)
      else none
    else some (kept, c :: chunks)

def recordLength (first : List Byte) : Option Nat :=
  if 5 ≤ first.length then do
    let contentType ← first[0]?
    if contentType = 22 then
      let len ← u16At first 3
      some (len + 5)
    else some 0
  else some 0

/-- The bytes kept, and what is left of the stream. -/
def readClientHelloPrefix (bufLen : Nat) (chunks : List (List Byte)) :
    Option (List Byte × List (List Byte)) :=
  let (first, rest) := read bufLen chunks
  if first.length = 0 then some ([], rest)
  else do
    let recordLen ← recordLength first
    if 0 < recordLen ∧ recordLen ≤ first.length then some (first, rest)
    else if 0 < recordLen ∧ recordLen ≤ bufLen then readRecord bufLen recordLen first rest
    else some (first, rest)

/-!
## The parser
-/

/-- The record and handshake headers. -/
def clientHelloBody (data : List Byte) : Option (Option (List Byte)) :=
  if data.length < 44 then some none
  else do
    let contentType ← data[0]?
    if contentType ≠ 22 then some none
    else
      let recordLen ← u16At data 3
      if data.length < 5 + recordLen then some none
      else
        let handshake ← slice data 5 data.length
        if handshake.length = 0 then some none
        else
          let handshakeType ← handshake[0]?
          if handshakeType ≠ 1 then some none
          else if handshake.length < 4 then some none
          else
            let h1 ← handshake[1]?
            let h2 ← handshake[2]?
            let h3 ← handshake[3]?
            let hsLen := h1.toNat * 65536 + h2.toNat * 256 + h3.toNat
            if handshake.length < 4 + hsLen then some none
            else
              let ch ← slice handshake 4 (4 + hsLen)
              if ch.length < 38 then some none else some (some ch)

/-- Where the extensions start and end. -/
def extensionsOf (ch : List Byte) : Option (Option (Nat × Nat)) :=
  if ch.length ≤ 34 then some none
  else do
    let sidLen ← ch[34]?
    let pos := 35 + sidLen.toNat
    if ch.length < pos + 2 then some none
    else
      let csLen ← u16At ch pos
      let pos := pos + 2 + csLen
      if ch.length < pos + 1 then some none
      else
        let cmLen ← ch[pos]?
        let pos := pos + 1 + cmLen.toNat
        if ch.length < pos + 2 then some none
        else
          let extLen ← u16At ch pos
          let pos := pos + 2
          if ch.length < pos + extLen then some none else some (some (pos, pos + extLen))

/-- The loop over the entries of a server name list. -/
def hostNameIn (ch : List Byte) (listEnd : Nat) : Nat -> Nat -> Option (Option String)
  | 0, _ => some none
  | fuel + 1, pos =>
    if pos + 3 ≤ listEnd then do
      let nameType ← ch[pos]?
      let nameLen ← u16At ch (pos + 1)
      if nameType = 0 ∧ pos + 3 + nameLen ≤ listEnd then
        let name ← slice ch (pos + 3) (pos + 3 + nameLen)
        some (fromUtf8 name)
      else hostNameIn ch listEnd fuel (pos + 3 + nameLen)
    else some none

/-- The loop over the extensions. -/
def serverNameIn (ch : List Byte) (extEnd : Nat) : Nat -> Nat -> Option (Option String)
  | 0, _ => some none
  | fuel + 1, pos =>
    if pos + 4 ≤ extEnd then do
      let extType ← u16At ch pos
      let extDataLen ← u16At ch (pos + 2)
      if extType = 0 then
        if ch.length < pos + 4 + 2 then some none
        else
          let listLen ← u16At ch (pos + 4)
          if extEnd < pos + 6 + listLen then some none
          else hostNameIn ch (pos + 6 + listLen) ch.length (pos + 6)
      else serverNameIn ch extEnd fuel (pos + 4 + extDataLen)
    else some none

def extractSniFromClientHello (data : List Byte) : Option (Option String) := do
  match ← clientHelloBody data with
  | none => some none
  | some ch =>
    match ← extensionsOf ch with
    | none => some none
    | some (pos, extEnd) => serverNameIn ch extEnd ch.length pos

/-!
## No index is out of bounds
-/

def Safe {α : Type} (x : Option α) : Prop :=
  x ≠ none

variable {α β : Type}

theorem Safe.some (a : α) : Safe (Option.some a) :=
  Option.some_ne_none a

theorem Safe.ite {cond : Prop} [Decidable cond] {x y : Option α} (hx : cond -> Safe x)
    (hy : ¬ cond -> Safe y) : Safe (if cond then x else y) := by
  by_cases h : cond
  · rw [if_pos h]
    exact hx h
  · rw [if_neg h]
    exact hy h

theorem Safe.bind {x : Option α} {f : α -> Option β} (hx : Safe x)
    (hf : forall a, x = Option.some a -> Safe (f a)) : Safe (x >>= f) := by
  cases hvalue : x with
  | none => exact absurd hvalue hx
  | some a => exact hf a hvalue

variable {bs : List Byte} {i : Nat}

theorem Safe.getElem (h : i < bs.length) : Safe bs[i]? := by
  rw [getElem?_eq_getElem h]
  exact Safe.some _

theorem Safe.u16At (h : i + 2 ≤ bs.length) : Safe (u16At bs i) := by
  refine Safe.bind (Safe.getElem (by omega)) ?_
  intro a _
  refine Safe.bind (Safe.getElem (by omega)) ?_
  intro b _
  exact Safe.some _

theorem Safe.slice {start stop : Nat} (h : start ≤ stop) (hstop : stop ≤ bs.length) :
    Safe (slice bs start stop) := by
  rw [ClientHello.slice, if_pos ⟨h, hstop⟩]
  exact Safe.some _

theorem clientHelloBody_safe (data : List Byte) : Safe (clientHelloBody data) := by
  refine Safe.ite (fun _ => Safe.some _) fun hlong => ?_
  refine Safe.bind (Safe.getElem (by omega)) fun contentType _ => ?_
  refine Safe.ite (fun _ => Safe.some _) fun _ => ?_
  refine Safe.bind (Safe.u16At (by omega)) fun recordLen _ => ?_
  refine Safe.ite (fun _ => Safe.some _) fun _ => ?_
  refine Safe.bind (Safe.slice (by omega) (Nat.le_refl _)) fun handshake _ => ?_
  refine Safe.ite (fun _ => Safe.some _) fun hempty => ?_
  refine Safe.bind (Safe.getElem (by omega)) fun handshakeType _ => ?_
  refine Safe.ite (fun _ => Safe.some _) fun _ => ?_
  refine Safe.ite (fun _ => Safe.some _) fun hheader => ?_
  refine Safe.bind (Safe.getElem (by omega)) fun h1 _ => ?_
  refine Safe.bind (Safe.getElem (by omega)) fun h2 _ => ?_
  refine Safe.bind (Safe.getElem (by omega)) fun h3 _ => ?_
  refine Safe.ite (fun _ => Safe.some _) fun hshort => ?_
  refine Safe.bind (Safe.slice (by omega) (by omega)) fun ch _ => ?_
  exact Safe.ite (fun _ => Safe.some _) fun _ => Safe.some _

theorem extensionsOf_safe (ch : List Byte) : Safe (extensionsOf ch) := by
  refine Safe.ite (fun _ => Safe.some _) fun hlong => ?_
  refine Safe.bind (Safe.getElem (by omega)) fun sidLen _ => ?_
  refine Safe.ite (fun _ => Safe.some _) fun hsid => ?_
  refine Safe.bind (Safe.u16At (by omega)) fun csLen _ => ?_
  refine Safe.ite (fun _ => Safe.some _) fun hcs => ?_
  refine Safe.bind (Safe.getElem (by omega)) fun cmLen _ => ?_
  refine Safe.ite (fun _ => Safe.some _) fun hcm => ?_
  refine Safe.bind (Safe.u16At (by omega)) fun extLen _ => ?_
  exact Safe.ite (fun _ => Safe.some _) fun _ => Safe.some _

variable {ch : List Byte}

theorem extensionsOf_bounds {pos extEnd : Nat} (h : extensionsOf ch = some (some (pos, extEnd))) :
    extEnd ≤ ch.length := by
  unfold extensionsOf at h
  split at h
  · cases h
  · obtain ⟨sidLen, _, h⟩ := Option.bind_eq_some_iff.mp h
    dsimp only at h
    split at h
    · cases h
    · obtain ⟨csLen, _, h⟩ := Option.bind_eq_some_iff.mp h
      split at h
      · cases h
      · obtain ⟨cmLen, _, h⟩ := Option.bind_eq_some_iff.mp h
        split at h
        · cases h
        · obtain ⟨extLen, _, h⟩ := Option.bind_eq_some_iff.mp h
          split at h
          · cases h
          · rename_i hbound
            cases h
            exact not_lt.mp hbound

theorem hostNameIn_safe {listEnd : Nat} (hend : listEnd ≤ ch.length) (fuel pos : Nat) :
    Safe (hostNameIn ch listEnd fuel pos) := by
  induction fuel generalizing pos with
  | zero =>
    exact Safe.some _
  | succ fuel ih =>
    refine Safe.ite (fun hpos => ?_) fun _ => Safe.some _
    refine Safe.bind (Safe.getElem (by omega)) fun nameType _ => ?_
    refine Safe.bind (Safe.u16At (by omega)) fun nameLen _ => ?_
    refine Safe.ite (fun hname => ?_) fun _ => ih _
    refine Safe.bind (Safe.slice (by omega) (by omega)) fun name _ => ?_
    exact Safe.some _

theorem serverNameIn_safe {extEnd : Nat} (hend : extEnd ≤ ch.length) (fuel pos : Nat) :
    Safe (serverNameIn ch extEnd fuel pos) := by
  induction fuel generalizing pos with
  | zero =>
    exact Safe.some _
  | succ fuel ih =>
    refine Safe.ite (fun hpos => ?_) fun _ => Safe.some _
    refine Safe.bind (Safe.u16At (by omega)) fun extType _ => ?_
    refine Safe.bind (Safe.u16At (by omega)) fun extDataLen _ => ?_
    refine Safe.ite (fun _ => ?_) fun _ => ih _
    refine Safe.ite (fun _ => Safe.some _) fun hlist => ?_
    refine Safe.bind (Safe.u16At (by omega)) fun listLen _ => ?_
    exact Safe.ite (fun _ => Safe.some _) fun hlen => hostNameIn_safe (by omega) _ _

theorem extractSniFromClientHello_safe (data : List Byte) :
    Safe (extractSniFromClientHello data) := by
  refine Safe.bind (clientHelloBody_safe data) fun body _ => ?_
  cases body with
  | none => exact Safe.some _
  | some ch =>
    refine Safe.bind (extensionsOf_safe ch) fun found hfound => ?_
    cases found with
    | none => exact Safe.some _
    | some bounds => exact serverNameIn_safe (extensionsOf_bounds hfound) _ _

theorem recordLength_safe (first : List Byte) : Safe (recordLength first) := by
  refine Safe.ite (fun hlong => ?_) fun _ => Safe.some _
  refine Safe.bind (Safe.getElem (by omega)) fun contentType _ => ?_
  refine Safe.ite (fun _ => ?_) fun _ => Safe.some _
  refine Safe.bind (Safe.u16At (by omega)) fun len _ => ?_
  exact Safe.some _

theorem readRecord_safe {bufLen recordLen : Nat} (hle : recordLen ≤ bufLen)
    (kept : List Byte) (chunks : List (List Byte)) :
    Safe (readRecord bufLen recordLen kept chunks) := by
  induction chunks generalizing kept with
  | nil =>
    refine Safe.ite (fun _ => ?_) fun _ => Safe.some _
    exact Safe.ite (fun _ => Safe.some _) fun hgt => absurd hle hgt
  | cons c chunks ih =>
    refine Safe.ite (fun _ => ?_) fun _ => Safe.some _
    refine Safe.ite (fun _ => ?_) fun hgt => absurd hle hgt
    refine Safe.ite (fun _ => Safe.some _) fun _ => ?_
    exact Safe.ite (fun _ => ih _) fun _ => Safe.some _

theorem readClientHelloPrefix_safe (bufLen : Nat) (chunks : List (List Byte)) :
    Safe (readClientHelloPrefix bufLen chunks) := by
  unfold readClientHelloPrefix
  refine Safe.ite (fun _ => Safe.some _) fun _ => ?_
  refine Safe.bind (recordLength_safe _) fun recordLen _ => ?_
  refine Safe.ite (fun _ => Safe.some _) fun _ => ?_
  exact Safe.ite (fun h => readRecord_safe h.2 _ _) fun _ => Safe.some _

/-!
## What is kept is what was consumed
-/

theorem read_conserves (limit : Nat) (chunks : List (List Byte)) :
    (read limit chunks).1 ++ (read limit chunks).2.flatten = chunks.flatten := by
  cases chunks with
  | nil => rfl
  | cons c chunks =>
    rw [read]
    split
    · rfl
    · rw [flatten_cons, flatten_cons, ← append_assoc, take_append_drop]

theorem readRecord_conserves {bufLen recordLen : Nat} {kept kept' : List Byte}
    {chunks chunks' : List (List Byte)}
    (h : readRecord bufLen recordLen kept chunks = some (kept', chunks')) :
    kept' ++ chunks'.flatten = kept ++ chunks.flatten := by
  induction chunks generalizing kept with
  | nil =>
    rw [readRecord] at h
    split at h
    · split at h
      · cases h
        rfl
      · cases h
    · cases h
      rfl
  | cons c chunks ih =>
    rw [readRecord] at h
    split at h
    · split at h
      · split at h
        · rename_i hnil
          cases h
          rw [hnil]
          rfl
        · split at h
          · rw [ih h, flatten_cons, append_assoc]
          · cases h
            rw [flatten_cons, flatten_cons, append_assoc,
              ← append_assoc (c.take _), take_append_drop]
      · cases h
    · cases h
      rfl

theorem readClientHelloPrefix_conserves {bufLen : Nat} {chunks rest : List (List Byte)}
    {kept : List Byte} (h : readClientHelloPrefix bufLen chunks = some (kept, rest)) :
    kept ++ rest.flatten = chunks.flatten := by
  have hread := read_conserves bufLen chunks
  unfold readClientHelloPrefix at h
  dsimp only at h
  split at h
  · rename_i hempty
    cases h
    rw [eq_nil_of_length_eq_zero hempty] at hread
    exact hread
  · obtain ⟨recordLen, _, h⟩ := Option.bind_eq_some_iff.mp h
    split at h
    · cases h
      exact hread
    · split at h
      · rw [readRecord_conserves h]
        exact hread
      · cases h
        exact hread

/-!
## Well-formed greetings
-/

/-- An entry of a server name list. -/
structure ServerName where
  nameType : Byte
  name : List Byte

def ServerName.bytes (n : ServerName) : List Byte :=
  n.nameType :: beBytes 2 n.name.length ++ n.name

structure Extension where
  extType : Nat
  data : List Byte

def Extension.bytes (e : Extension) : List Byte :=
  beBytes 2 e.extType ++ beBytes 2 e.data.length ++ e.data

def Extension.Fits (e : Extension) : Prop :=
  e.extType < 65536 ∧ e.data.length < 65536

/-- The list starts with the host, and its extension is the first of its type. -/
structure Greeting where
  recordVersion : List Byte
  version : List Byte
  random : List Byte
  sessionId : List Byte
  cipherSuites : List Byte
  compressionMethods : List Byte
  earlier : List Extension
  host : String
  moreNames : List ServerName
  later : List Extension

namespace Greeting

def names (g : Greeting) : List Byte :=
  ServerName.bytes ⟨0, utf8 g.host⟩ ++ g.moreNames.flatMap ServerName.bytes

def serverNameExtension (g : Greeting) : Extension where
  extType := 0
  data := beBytes 2 g.names.length ++ g.names

def extensions (g : Greeting) : List Byte :=
  g.earlier.flatMap Extension.bytes ++ g.serverNameExtension.bytes ++
    g.later.flatMap Extension.bytes

def body (g : Greeting) : List Byte :=
  g.version ++ g.random ++ (UInt8.ofNat g.sessionId.length :: g.sessionId) ++
    beBytes 2 g.cipherSuites.length ++ g.cipherSuites ++
    (UInt8.ofNat g.compressionMethods.length :: g.compressionMethods) ++
    beBytes 2 g.extensions.length ++ g.extensions

def handshake (g : Greeting) : List Byte :=
  1 :: beBytes 3 g.body.length ++ g.body

def record (g : Greeting) : List Byte :=
  22 :: g.recordVersion ++ beBytes 2 g.handshake.length ++ g.handshake

structure WellFormed (g : Greeting) : Prop where
  recordVersion : g.recordVersion.length = 2
  version : g.version.length = 2
  random : g.random.length = 32
  sessionId : g.sessionId.length < 256
  compressionMethods : g.compressionMethods.length < 256
  earlier : forall e, e ∈ g.earlier -> e.Fits ∧ e.extType ≠ 0
  fits : g.record.length ≤ 4096

end Greeting

/-!
## Reading a greeting
-/

theorem beBytes_two (v : Nat) : beBytes 2 v = [UInt8.ofNat (v / 256), UInt8.ofNat v] := rfl

theorem getElem_at (before : List Byte) (b : Byte) (rest : List Byte) (hi : i = before.length) :
    (before ++ b :: rest)[i]? = some b := by
  rw [hi, getElem?_append_right (Nat.le_refl _), Nat.sub_self]
  rfl

theorem u16At_at (before : List Byte) {v : Nat} (hv : v < 65536) (rest : List Byte)
    (hi : i = before.length) : u16At (before ++ (beBytes 2 v ++ rest)) i = some v := by
  have hfirst : (before ++ (beBytes 2 v ++ rest))[i]? = some (UInt8.ofNat (v / 256)) :=
    getElem_at before _ _ hi
  have hsecond : (before ++ (beBytes 2 v ++ rest))[i + 1]? = some (UInt8.ofNat v) := by
    have happend : before ++ (beBytes 2 v ++ rest) =
        (before ++ [UInt8.ofNat (v / 256)]) ++ UInt8.ofNat v :: rest := by
      rw [beBytes_two]
      simp
    rw [happend]
    exact getElem_at _ _ _ (by simp [hi])
  unfold u16At
  rw [hfirst, hsecond]
  simp only [Option.bind_eq_bind, Option.bind_some, UInt8.toNat_ofNat', Option.some.injEq]
  omega

theorem slice_at (before part rest : List Byte) {start stop : Nat} (hstart : start = before.length)
    (hstop : stop = before.length + part.length) :
    slice (before ++ (part ++ rest)) start stop = some part := by
  unfold slice
  rw [if_pos (by simp only [length_append]; omega)]
  rw [hstart, hstop, ← append_assoc, take_append_of_le_length (by simp),
    take_of_length_le (by simp), drop_left]

theorem ServerName.bytes_length (n : ServerName) : n.bytes.length = 3 + n.name.length := by
  simp [ServerName.bytes]
  omega

theorem Extension.bytes_length (e : Extension) : e.bytes.length = 4 + e.data.length := by
  simp [Extension.bytes]
  omega

theorem hostNameIn_first {g : Greeting} {ch before rest : List Byte} {pos listEnd fuel : Nat}
    (hch : ch = before ++ (g.names ++ rest)) (hpos : pos = before.length)
    (hend : listEnd = before.length + g.names.length) (hsize : g.names.length < 65536)
    (hfuel : 0 < fuel) : hostNameIn ch listEnd fuel pos = some (some g.host) := by
  have hlength : g.names.length = 3 + (utf8 g.host).length +
      (g.moreNames.flatMap ServerName.bytes).length := by
    rw [Greeting.names, length_append, ServerName.bytes_length]
  obtain ⟨fuel, rfl⟩ := Nat.exists_eq_succ_of_ne_zero (Nat.ne_of_gt hfuel)
  have htype : ch[pos]? = some 0 := by
    rw [hch]
    exact getElem_at before 0 _ hpos
  have hlen : u16At ch (pos + 1) = some (utf8 g.host).length := by
    have happend : ch = (before ++ [0]) ++ (beBytes 2 (utf8 g.host).length ++
        (utf8 g.host ++ (g.moreNames.flatMap ServerName.bytes ++ rest))) := by
      rw [hch]
      simp [Greeting.names, ServerName.bytes]
    rw [happend]
    exact u16At_at _ (by omega) _ (by simp [hpos])
  have hname : slice ch (pos + 3) (pos + 3 + (utf8 g.host).length) = some (utf8 g.host) := by
    have happend : ch = (before ++ 0 :: beBytes 2 (utf8 g.host).length) ++ (utf8 g.host ++
        (g.moreNames.flatMap ServerName.bytes ++ rest)) := by
      rw [hch]
      simp [Greeting.names, ServerName.bytes]
    rw [happend]
    exact slice_at _ _ _ (by simp [hpos]) (by simp [hpos])
  rw [hostNameIn, if_pos (by omega), htype, hlen]
  simp only [Option.bind_eq_bind, Option.bind_some]
  rw [if_pos ⟨trivial, by omega⟩, hname]
  simp only [Option.bind_some]
  rw [fromUtf8_utf8]

theorem serverNameIn_found {g : Greeting} {ch before rest : List Byte} {earlier : List Extension}
    {pos extEnd fuel : Nat}
    (hch : ch = before ++ (earlier.flatMap Extension.bytes ++
      (g.serverNameExtension.bytes ++ rest)))
    (hpos : pos = before.length) (hend : extEnd = ch.length)
    (hearlier : forall e, e ∈ earlier -> e.Fits ∧ e.extType ≠ 0)
    (hsize : g.names.length + 2 < 65536) (hfuel : earlier.length < fuel) :
    serverNameIn ch extEnd fuel pos = some (some g.host) := by
  induction earlier generalizing before pos fuel with
  | nil =>
    obtain ⟨fuel, rfl⟩ := Nat.exists_eq_succ_of_ne_zero (Nat.ne_of_gt hfuel)
    have hdata : g.serverNameExtension.data.length = g.names.length + 2 := by
      simp [Greeting.serverNameExtension]
      omega
    have hlength : ch.length = before.length + (6 + g.names.length) + rest.length := by
      rw [hch]
      simp only [flatMap_nil, nil_append, length_append,
        Extension.bytes_length, hdata]
      omega
    have htype : u16At ch pos = some 0 := by
      have happend : ch = before ++ (beBytes 2 0 ++
          (beBytes 2 g.serverNameExtension.data.length ++
            (g.serverNameExtension.data ++ rest))) := by
        rw [hch]
        simp [Extension.bytes, Greeting.serverNameExtension]
      rw [happend]
      exact u16At_at _ (by omega) _ hpos
    have hlen : u16At ch (pos + 2) = some g.serverNameExtension.data.length := by
      have happend : ch = (before ++ beBytes 2 0) ++
          (beBytes 2 g.serverNameExtension.data.length ++
            (g.serverNameExtension.data ++ rest)) := by
        rw [hch]
        simp [Extension.bytes, Greeting.serverNameExtension]
      rw [happend]
      exact u16At_at _ (by omega) _ (by simp [hpos])
    have hlist : u16At ch (pos + 4) = some g.names.length := by
      have happend : ch = (before ++ (beBytes 2 0 ++
          beBytes 2 g.serverNameExtension.data.length)) ++
          (beBytes 2 g.names.length ++ (g.names ++ rest)) := by
        rw [hch]
        simp [Extension.bytes, Greeting.serverNameExtension]
      rw [happend]
      exact u16At_at _ (by omega) _ (by simp [hpos])
    have hnames : ch = (before ++ (beBytes 2 0 ++
        (beBytes 2 g.serverNameExtension.data.length ++ beBytes 2 g.names.length))) ++
        (g.names ++ rest) := by
      rw [hch]
      simp [Extension.bytes, Greeting.serverNameExtension]
    rw [serverNameIn, if_pos (by omega), htype, hlen]
    simp only [Option.bind_eq_bind, Option.bind_some, if_true]
    rw [if_neg (by omega), hlist]
    simp only [Option.bind_some]
    rw [if_neg (by omega)]
    exact hostNameIn_first hnames (by simp [hpos]) (by simp [hpos]) (by omega) (by omega)
  | cons e earlier ih =>
    obtain ⟨fuel, rfl⟩ := Nat.exists_eq_succ_of_ne_zero (Nat.ne_of_gt (Nat.zero_lt_of_lt hfuel))
    obtain ⟨⟨htypeFits, hdataFits⟩, hother⟩ := hearlier e mem_cons_self
    have hlength : before.length + (4 + e.data.length) ≤ ch.length := by
      rw [hch]
      simp only [flatMap_cons, length_append, Extension.bytes_length]
      omega
    have htype : u16At ch pos = some e.extType := by
      rw [hch, flatMap_cons, Extension.bytes]
      exact u16At_at _ htypeFits _ hpos
    have hlen : u16At ch (pos + 2) = some e.data.length := by
      have happend : ch = (before ++ beBytes 2 e.extType) ++ (beBytes 2 e.data.length ++
          (e.data ++ (earlier.flatMap Extension.bytes ++
            (g.serverNameExtension.bytes ++ rest)))) := by
        rw [hch, flatMap_cons, Extension.bytes]
        simp only [append_assoc]
      rw [happend]
      exact u16At_at _ hdataFits _ (by simp [hpos])
    have hnext : ch = (before ++ e.bytes) ++ (earlier.flatMap Extension.bytes ++
        (g.serverNameExtension.bytes ++ rest)) := by
      rw [hch, flatMap_cons]
      simp only [append_assoc]
    rw [serverNameIn, if_pos (by omega), htype, hlen]
    simp only [Option.bind_eq_bind, Option.bind_some, if_neg hother]
    refine ih hnext ?_ (fun e' he' => hearlier e' (mem_cons_of_mem e he')) ?_
    · rw [length_append, Extension.bytes_length]
      omega
    · rw [length_cons] at hfuel
      omega

namespace Greeting

variable {g : Greeting}

theorem serverNameExtension_length (g : Greeting) :
    g.serverNameExtension.bytes.length = 6 + g.names.length := by
  rw [Extension.bytes_length]
  simp [serverNameExtension]
  omega

theorem extensions_length (g : Greeting) :
    g.extensions.length = (g.earlier.flatMap Extension.bytes).length +
      (6 + g.names.length) + (g.later.flatMap Extension.bytes).length := by
  rw [extensions, length_append, length_append, serverNameExtension_length]

def prelude (g : Greeting) : List Byte :=
  g.version ++ g.random ++ (UInt8.ofNat g.sessionId.length :: g.sessionId) ++
    beBytes 2 g.cipherSuites.length ++ g.cipherSuites ++
    (UInt8.ofNat g.compressionMethods.length :: g.compressionMethods)

theorem body_eq (g : Greeting) :
    g.body = g.prelude ++ (beBytes 2 g.extensions.length ++ g.extensions) := by
  simp [body, prelude]

theorem prelude_length (h : g.WellFormed) :
    g.prelude.length = 38 + g.sessionId.length + g.cipherSuites.length +
      g.compressionMethods.length := by
  simp only [prelude, length_append, length_cons, beBytes_length, h.version, h.random]
  omega

theorem body_length (h : g.WellFormed) :
    g.body.length = 40 + g.sessionId.length + g.cipherSuites.length +
      g.compressionMethods.length + g.extensions.length := by
  rw [body_eq, length_append, length_append, prelude_length h, beBytes_length]
  omega

theorem handshake_length (g : Greeting) : g.handshake.length = 4 + g.body.length := by
  simp [handshake]
  omega

theorem record_length (h : g.WellFormed) : g.record.length = 5 + g.handshake.length := by
  simp [record, h.recordVersion]
  omega

theorem earlier_length (g : Greeting) :
    g.earlier.length ≤ (g.earlier.flatMap Extension.bytes).length := by
  have hall : forall es : List Extension,
      es.length ≤ (es.flatMap Extension.bytes).length := by
    intro es
    induction es with
    | nil =>
      exact Nat.le_refl _
    | cons e es ih =>
      rw [flatMap_cons, length_append, Extension.bytes_length, length_cons]
      omega
  exact hall g.earlier

theorem body_extensions (h : g.WellFormed) :
    extensionsOf g.body = some (some (g.prelude.length + 2, g.body.length)) := by
  have hfits := h.fits
  rw [record_length h, handshake_length] at hfits
  have hlength := body_length h
  have hprelude := prelude_length h
  have hsid : g.body[34]? = some (UInt8.ofNat g.sessionId.length) := by
    have happend : g.body = (g.version ++ g.random) ++ UInt8.ofNat g.sessionId.length ::
        (g.sessionId ++ beBytes 2 g.cipherSuites.length ++ g.cipherSuites ++
          (UInt8.ofNat g.compressionMethods.length :: g.compressionMethods) ++
          beBytes 2 g.extensions.length ++ g.extensions) := by
      simp [body]
    rw [happend]
    exact getElem_at _ _ _ (by simp [h.version, h.random])
  have hcs : u16At g.body (35 + g.sessionId.length) = some g.cipherSuites.length := by
    have happend : g.body = (g.version ++ g.random ++
        (UInt8.ofNat g.sessionId.length :: g.sessionId)) ++
        (beBytes 2 g.cipherSuites.length ++ (g.cipherSuites ++
          (UInt8.ofNat g.compressionMethods.length :: g.compressionMethods) ++
          beBytes 2 g.extensions.length ++ g.extensions)) := by
      simp [body]
    rw [happend]
    exact u16At_at _ (by omega) _ (by simp [h.version, h.random]; omega)
  have hcm : g.body[35 + g.sessionId.length + 2 + g.cipherSuites.length]? =
      some (UInt8.ofNat g.compressionMethods.length) := by
    have happend : g.body = (g.version ++ g.random ++
        (UInt8.ofNat g.sessionId.length :: g.sessionId) ++
        beBytes 2 g.cipherSuites.length ++ g.cipherSuites) ++
        UInt8.ofNat g.compressionMethods.length :: (g.compressionMethods ++
          beBytes 2 g.extensions.length ++ g.extensions) := by
      simp [body]
    rw [happend]
    exact getElem_at _ _ _ (by simp [h.version, h.random]; omega)
  have hext : u16At g.body (g.prelude.length) = some g.extensions.length := by
    rw [body_eq]
    exact u16At_at _ (by omega) _ rfl
  have hsidNat : (UInt8.ofNat g.sessionId.length).toNat = g.sessionId.length := by
    rw [UInt8.toNat_ofNat', Nat.mod_eq_of_lt h.sessionId]
  have hcmNat : (UInt8.ofNat g.compressionMethods.length).toNat =
      g.compressionMethods.length := by
    rw [UInt8.toNat_ofNat', Nat.mod_eq_of_lt h.compressionMethods]
  have hpos : 35 + g.sessionId.length + 2 + g.cipherSuites.length + 1 +
      g.compressionMethods.length = g.prelude.length := by omega
  unfold extensionsOf
  rw [if_neg (by omega), hsid]
  simp only [Option.bind_eq_bind, Option.bind_some, hsidNat]
  rw [if_neg (by omega), hcs]
  simp only [Option.bind_some]
  rw [if_neg (by omega), hcm]
  simp only [Option.bind_some, hcmNat, hpos]
  rw [if_neg (by omega), hext]
  simp only [Option.bind_some]
  rw [if_neg (by omega)]
  congr 3
  omega

theorem three_bytes {n : Nat} (h : n < 65536) :
    (UInt8.ofNat (n / 256 / 256)).toNat * 65536 + (UInt8.ofNat (n / 256)).toNat * 256 +
      (UInt8.ofNat n).toNat = n := by
  simp only [UInt8.toNat_ofNat']
  omega

theorem handshake_header (g : Greeting) (more : List Byte) :
    (g.handshake ++ more)[0]? = some 1 ∧
    (g.handshake ++ more)[1]? = some (UInt8.ofNat (g.body.length / 256 / 256)) ∧
    (g.handshake ++ more)[2]? = some (UInt8.ofNat (g.body.length / 256)) ∧
    (g.handshake ++ more)[3]? = some (UInt8.ofNat g.body.length) := by
  have hcons : g.handshake ++ more = 1 :: UInt8.ofNat (g.body.length / 256 / 256) ::
      UInt8.ofNat (g.body.length / 256) :: UInt8.ofNat g.body.length :: (g.body ++ more) := by
    rfl
  exact ⟨rfl, rfl, rfl, rfl⟩

theorem clientHelloBody_of_checks {data hs body : List Byte} {n : Nat} {b1 b2 b3 : Byte}
    (hlong : ¬ data.length < 44) (htype : data[0]? = some 22) (hlen : u16At data 3 = some n)
    (hwhole : ¬ data.length < 5 + n) (hslice : slice data 5 data.length = some hs)
    (hsome : ¬ hs.length = 0) (h0 : hs[0]? = some 1) (hfour : ¬ hs.length < 4)
    (h1 : hs[1]? = some b1) (h2 : hs[2]? = some b2) (h3 : hs[3]? = some b3)
    (hnat : b1.toNat * 65536 + b2.toNat * 256 + b3.toNat = body.length)
    (hfull : ¬ hs.length < 4 + body.length) (hbody : slice hs 4 (4 + body.length) = some body)
    (hshort : ¬ body.length < 38) : clientHelloBody data = some (some body) := by
  unfold clientHelloBody
  rw [if_neg hlong, htype, Option.bind_eq_bind, Option.bind_some, if_neg (not_not.mpr rfl), hlen,
    Option.bind_eq_bind, Option.bind_some, if_neg hwhole, hslice, Option.bind_eq_bind,
    Option.bind_some, if_neg hsome, h0, Option.bind_some, if_neg (not_not.mpr rfl), if_neg hfour,
    h1, Option.bind_some, h2, Option.bind_some, h3, Option.bind_some]
  rw [hnat, if_neg hfull, hbody, Option.bind_some, if_neg hshort]

theorem record_body (h : g.WellFormed) (more : List Byte) :
    clientHelloBody (g.record ++ more) = some (some g.body) := by
  have hfits := h.fits
  have hrecord := record_length h
  have hhandshake := handshake_length g
  have hlength := body_length h
  have htype : (g.record ++ more)[0]? = some 22 := rfl
  have hlen : u16At (g.record ++ more) 3 = some g.handshake.length := by
    have happend : g.record ++ more = (22 :: g.recordVersion) ++
        (beBytes 2 g.handshake.length ++ (g.handshake ++ more)) := by
      simp [record]
    rw [happend]
    exact u16At_at _ (by omega) _ (by simp [h.recordVersion])
  have hslice : slice (g.record ++ more) 5 (g.record ++ more).length =
      some (g.handshake ++ more) := by
    have happend : g.record ++ more = (22 :: g.recordVersion ++
        beBytes 2 g.handshake.length) ++ (g.handshake ++ more ++ []) := by
      simp [record]
    rw [happend]
    exact slice_at _ _ _ (by simp [h.recordVersion]) (by simp [h.recordVersion]; omega)
  have hbody : slice (g.handshake ++ more) 4 (4 + g.body.length) = some g.body := by
    have happend : g.handshake ++ more = (1 :: beBytes 3 g.body.length) ++ (g.body ++ more) := by
      simp [handshake]
    rw [happend]
    exact slice_at _ _ _ (by simp) (by simp)
  have hnat := @three_bytes g.body.length (by omega)
  have htotal : (g.record ++ more).length = g.record.length + more.length :=
    length_append
  have hrest : (g.handshake ++ more).length = g.handshake.length + more.length :=
    length_append
  obtain ⟨h0, h1, h2, h3⟩ := g.handshake_header more
  exact clientHelloBody_of_checks (by omega) htype hlen (by omega) hslice (by omega) h0 (by omega)
    h1 h2 h3 hnat (by omega) hbody (by omega)

theorem record_serverName (h : g.WellFormed) (more : List Byte) :
    extractSniFromClientHello (g.record ++ more) = some (some g.host) := by
  have hfits := h.fits
  have hrecord := record_length h
  have hhandshake := handshake_length g
  have hlength := body_length h
  have hext := extensions_length g
  have hearlier := earlier_length g
  unfold extractSniFromClientHello
  rw [record_body h more]
  simp only [Option.bind_eq_bind, Option.bind_some]
  rw [body_extensions h]
  have hbody : g.body = (g.prelude ++ beBytes 2 g.extensions.length) ++
      (g.earlier.flatMap Extension.bytes ++ (g.serverNameExtension.bytes ++
        g.later.flatMap Extension.bytes)) := by
    rw [body_eq, extensions]
    simp only [append_assoc]
  exact serverNameIn_found hbody (by simp) rfl h.earlier (by omega) (by omega)

end Greeting

/-!
## Segments
-/

theorem getElem_first {first rest : List Byte} {i : Nat} (h : i < first.length) :
    first[i]? = (first ++ rest)[i]? :=
  (getElem?_append_left h).symm

theorem u16At_first {first rest : List Byte} {i : Nat} (h : i + 1 < first.length) :
    u16At first i = u16At (first ++ rest) i := by
  rw [u16At, u16At, @getElem_first first rest i (by omega),
    @getElem_first first rest (i + 1) h]

theorem recordLength_eq {g : Greeting} (h : g.WellFormed) {first rest more : List Byte}
    (hfirst : first ++ rest = g.record ++ more) (hlong : 5 ≤ first.length) :
    recordLength first = some g.record.length := by
  have hfits := h.fits
  have hrecord := Greeting.record_length h
  have htype : first[0]? = some 22 := by
    rw [@getElem_first first rest 0 (by omega), hfirst]
    rfl
  have hlen : u16At first 3 = some g.handshake.length := by
    rw [@u16At_first first rest 3 (by omega), hfirst]
    have happend : g.record ++ more = (22 :: g.recordVersion) ++
        (beBytes 2 g.handshake.length ++ (g.handshake ++ more)) := by
      simp [Greeting.record]
    rw [happend]
    exact u16At_at _ (by omega) _ (by simp [h.recordVersion])
  unfold recordLength
  rw [if_pos hlong, htype]
  simp only [Option.bind_eq_bind, Option.bind_some, if_true]
  rw [hlen, hrecord]
  simp only [Option.bind_some, Nat.add_comm]

/-- The loop reads up to the end of the record, wherever the segments end. -/
theorem readRecord_eq {record more kept : List Byte} {bufLen : Nat}
    (hbuf : record.length ≤ bufLen) {chunks : List (List Byte)}
    (hchunks : forall c, c ∈ chunks -> c ≠ [])
    (htext : kept ++ chunks.flatten = record ++ more) (hkept : kept.length ≤ record.length) :
    exists rest, readRecord bufLen record.length kept chunks = some (record, rest) := by
  induction chunks generalizing kept with
  | nil =>
    have hlength := congrArg length htext
    rw [flatten_nil, append_nil, length_append] at hlength
    rw [flatten_nil, append_nil] at htext
    have hsame : kept = record := by
      have htake := congrArg (take record.length) htext
      rw [take_left, take_of_length_le hkept] at htake
      exact htake
    rw [readRecord, if_neg (by omega), hsame]
    exact ⟨_, rfl⟩
  | cons c chunks ih =>
    have hc := hchunks c mem_cons_self
    by_cases hlt : kept.length < record.length
    · rw [readRecord, if_pos hlt, if_pos hbuf, if_neg hc]
      by_cases hfits : c.length ≤ record.length - kept.length
      · rw [if_pos hfits]
        refine ih (fun c' hc' => hchunks c' (mem_cons_of_mem c hc')) ?_ ?_
        · rw [append_assoc, ← flatten_cons]
          exact htext
        · rw [length_append]
          omega
      · rw [if_neg hfits]
        have htake := congrArg (take record.length) htext
        rw [take_left, flatten_cons, take_append,
          take_of_length_le (Nat.le_of_lt hlt),
          take_append_of_le_length (by omega)] at htake
        rw [htake]
        exact ⟨_, rfl⟩
    · have htake := congrArg (take record.length) htext
      rw [take_left, take_append_of_le_length (by omega),
        take_of_length_le hkept] at htake
      rw [readRecord, if_neg hlt, htake]
      exact ⟨_, rfl⟩

def Routed (g : Greeting) (chunks : List (List Byte)) : Prop :=
  exists kept rest, readClientHelloPrefix 4096 chunks = some (kept, rest) ∧
    kept ++ rest.flatten = chunks.flatten ∧
    extractSniFromClientHello kept = some (some g.host)

theorem routed_of_kept {g : Greeting} (h : g.WellFormed) {chunks rest : List (List Byte)}
    {tail : List Byte} (hread : readClientHelloPrefix 4096 chunks = some (g.record ++ tail, rest)) :
    Routed g chunks :=
  ⟨_, rest, hread, readClientHelloPrefix_conserves hread, Greeting.record_serverName h tail⟩

theorem read_first {c : List Byte} {chunks : List (List Byte)} (hc : c ≠ []) :
    exists first rest, read 4096 (c :: chunks) = (first, rest) ∧ first ≠ [] ∧
      first ++ rest.flatten = (c :: chunks).flatten ∧
      (forall c', c' ∈ rest -> c' ∈ chunks ∨ c' ≠ []) ∧
      (5 ≤ first.length ↔ 5 ≤ c.length) := by
  have hflat := read_conserves 4096 (c :: chunks)
  refine ⟨(read 4096 (c :: chunks)).1, (read 4096 (c :: chunks)).2, rfl, ?_, hflat, ?_, ?_⟩
  · rw [read]
    split
    · exact hc
    · intro hnil
      have hlength := congrArg length hnil
      rw [length_take, length_nil] at hlength
      omega
  · intro c' hmem
    rw [read] at hmem
    split at hmem
    · exact Or.inl hmem
    · rename_i hlong
      rcases mem_cons.mp hmem with heq | hmem
      · right
        intro hnil
        have hlength := congrArg length (heq.symm.trans hnil)
        rw [length_drop, length_nil] at hlength
        omega
      · exact Or.inl hmem
  · rw [read]
    split
    · exact Iff.rfl
    · rw [length_take]
      omega

/-- The host is found exactly when the first segment holds the header of the record. -/
theorem routed_iff {g : Greeting} (h : g.WellFormed) {chunks : List (List Byte)}
    {more : List Byte} (hchunks : Chunked chunks (g.record ++ more)) :
    Routed g chunks ↔ 5 ≤ (chunks.headD []).length := by
  cases chunks with
  | nil =>
    have hflat := hchunks.2
    cases hflat
  | cons c chunks =>
    have hc := hchunks.1 c mem_cons_self
    obtain ⟨first, rest, hread, hfirst, hflat, hrest, hfive⟩ := @read_first c chunks hc
    have hnonempty : forall c', c' ∈ rest -> c' ≠ [] := by
      intro c' hmem
      rcases hrest c' hmem with hin | hne
      · exact hchunks.1 c' (mem_cons_of_mem c hin)
      · exact hne
    have htext : first ++ rest.flatten = g.record ++ more := hflat.trans hchunks.2
    have hzero : ¬ first.length = 0 := fun hlen => hfirst (eq_nil_of_length_eq_zero hlen)
    have hbegins : forall recordLen, recordLength first = some recordLen ->
        readClientHelloPrefix 4096 (c :: chunks) =
          if 0 < recordLen ∧ recordLen ≤ first.length then some (first, rest)
          else if 0 < recordLen ∧ recordLen ≤ 4096 then readRecord 4096 recordLen first rest
          else some (first, rest) := by
      intro recordLen hlen
      unfold readClientHelloPrefix
      rw [hread]
      dsimp only
      rw [if_neg hzero, hlen]
      rfl
    rw [headD_cons, ← hfive]
    constructor
    · rintro ⟨kept, rest', hkept, _, hname⟩
      by_contra hshort
      have hlen : recordLength first = some 0 := if_neg hshort
      rw [hbegins 0 hlen, if_neg (by omega), if_neg (by omega)] at hkept
      cases hkept
      unfold extractSniFromClientHello clientHelloBody at hname
      rw [if_pos (by omega)] at hname
      cases hname
    · intro hlong
      have hlen := recordLength_eq h htext hlong
      have hread' := hbegins _ hlen
      have hpos : 0 < g.record.length := by
        rw [Greeting.record_length h]
        omega
      by_cases hwhole : g.record.length ≤ first.length
      · rw [if_pos ⟨hpos, hwhole⟩] at hread'
        have hsplit : first = g.record ++ first.drop g.record.length := by
          have htake := congrArg (take g.record.length) htext
          rw [take_left, take_append_of_le_length hwhole] at htake
          conv_lhs => rw [← take_append_drop g.record.length first, htake]
        rw [hsplit] at hread'
        exact routed_of_kept h hread'
      · rw [if_neg (fun hcond => hwhole hcond.2), if_pos ⟨hpos, h.fits⟩] at hread'
        obtain ⟨rest', hrecord⟩ := readRecord_eq h.fits hnonempty htext (by omega)
        rw [hrecord, ← append_nil g.record] at hread'
        exact routed_of_kept h hread'

/-- Neither function indexes out of bounds.  For a greeting in one record that fits the
buffer, the listener finds the host and keeps what it consumed exactly when the first segment
has the five bytes of the record header. -/
theorem sni_of_segments {g : Greeting} {more : List Byte} {chunks : List (List Byte)}
    (h : g.WellFormed) (hchunks : Chunked chunks (g.record ++ more)) :
    (Routed g chunks ↔ 5 ≤ (chunks.headD []).length) ∧
      (forall bufLen chunks, readClientHelloPrefix bufLen chunks ≠ none) ∧
      forall data, extractSniFromClientHello data ≠ none :=
  ⟨routed_iff h hchunks, readClientHelloPrefix_safe, extractSniFromClientHello_safe⟩

/-- A greeting for `"a.io"`. -/
def sampleGreeting : Greeting where
  recordVersion := [3, 1]
  version := [3, 3]
  random := replicate 32 7
  sessionId := []
  cipherSuites := [19, 1]
  compressionMethods := [0]
  earlier := [⟨16, [0, 3, 2, 104, 50]⟩]
  host := "a.io"
  moreNames := []
  later := []

theorem sampleGreeting_wellFormed : sampleGreeting.WellFormed where
  recordVersion := rfl
  version := rfl
  random := rfl
  sessionId := by decide
  compressionMethods := by decide
  earlier := by
    intro e he
    rw [mem_singleton.mp he]
    exact ⟨⟨by decide, by decide⟩, by decide⟩
  fits := by decide +kernel

theorem sni_of_segments_sample : Routed sampleGreeting [sampleGreeting.record] := by
  have hchunked : Chunked [sampleGreeting.record] (sampleGreeting.record ++ []) := by
    constructor
    · intro c hc
      rw [mem_singleton.mp hc]
      decide +kernel
    · simp
  exact (sni_of_segments sampleGreeting_wellFormed hchunked).1.mpr (by decide +kernel)

/-- The first byte arrives alone, and the greeting is not recognised. -/
theorem short_segment_unrouted :
    sampleGreeting.WellFormed ∧
      Chunked [sampleGreeting.record.take 1, sampleGreeting.record.drop 1]
        sampleGreeting.record ∧
      ¬ Routed sampleGreeting
        [sampleGreeting.record.take 1, sampleGreeting.record.drop 1] := by
  have hchunked : Chunked [sampleGreeting.record.take 1, sampleGreeting.record.drop 1]
      (sampleGreeting.record ++ []) := by
    constructor
    · intro c hc
      rcases mem_cons.mp hc with heq | hmem
      · rw [heq]
        decide +kernel
      · rw [mem_singleton.mp hmem]
        decide +kernel
    · rw [flatten_cons, flatten_cons, flatten_nil, append_nil,
        append_nil, take_append_drop]
  refine ⟨sampleGreeting_wellFormed, by simpa using hchunked, ?_⟩
  intro hrouted
  have hlong := (routed_iff sampleGreeting_wellFormed hchunked).mp hrouted
  exact absurd hlong (by decide +kernel)

end ClientHello
end Http
end FrpRs
