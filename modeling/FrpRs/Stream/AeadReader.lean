import FrpRs.Stream.AeadSessions

/-!
# Reading AEAD streams

A reader delivers the payloads of the frames that are there as a whole.  The stream ends well
between two frames, and with an error inside the stream nonce, a header or a ciphertext.

A frame under the last nonce opens, but is not delivered.
-/

namespace FrpRs
namespace Stream

open List Bytes Poll

/-!
## Frames that follow
-/

/-- The bytes from this frame on are these whole frames.  They are clean if nothing else is
there. -/
inductive Follows (cipher : AeadCipher) (algorithm : AeadAlgorithm) (n0 : List Byte) :
    Nat -> List Byte -> List Sealed -> Bool -> Prop
  | done (k : Nat) : Follows cipher algorithm n0 k [] [] true
  | cut {k : Nat} {e : Sealed} {bytes rest : List Byte} (hvalid : e.Valid cipher algorithm n0 k)
      (hframe : bytes ++ rest = e.frame algorithm) (hbytes : bytes ≠ []) (hrest : rest ≠ []) :
      Follows cipher algorithm n0 k bytes [] false
  | last {k : Nat} {e : Sealed} (hvalid : e.Valid cipher algorithm n0 k)
      (hlast : ofBeBytes n0 + k + 1 = 256 ^ n0.length) :
      Follows cipher algorithm n0 k (e.frame algorithm) [] false
  | frame {k : Nat} {e : Sealed} {bytes : List Byte} {es : List Sealed} {clean : Bool}
      (hvalid : e.Valid cipher algorithm n0 k) (hrange : ofBeBytes n0 + k + 1 < 256 ^ n0.length)
      (hnext : Follows cipher algorithm n0 (k + 1) bytes es clean) :
      Follows cipher algorithm n0 k (e.frame algorithm ++ bytes) (e :: es) clean

section Follow

variable {cipher : AeadCipher} {algorithm : AeadAlgorithm} {n0 : List Byte}

theorem length_frameHeader (plaintext : List Byte) :
    (AeadWriteState.frameHeader algorithm plaintext).length = aeadFrameHeaderSize :=
  beBytes_length _ _

theorem Sealed.Valid.header_length {k : Nat} {e : Sealed} (h : e.Valid cipher algorithm n0 k) :
    ofBeBytes (AeadWriteState.frameHeader algorithm e.plaintext) = e.ciphertext.length := by
  have hshort := h.short
  have hoverhead : algorithm.overhead = 16 := rfl
  have hmax : defaultMaxPayloadSize = 65536 := rfl
  rw [AeadWriteState.frameHeader, ofBeBytes_beBytes, h.length]
  apply Nat.mod_eq_of_lt
  change _ < 4294967296
  omega

/-- What there is after a whole header. -/
inductive Behind (cipher : AeadCipher) (algorithm : AeadAlgorithm) (n0 : List Byte) (k : Nat)
    (e : Sealed) : List Byte -> List Sealed -> Bool -> Prop
  | cut {bytes rest : List Byte} (hrest : rest ≠ []) (hbytes : bytes ++ rest = e.ciphertext) :
      Behind cipher algorithm n0 k e bytes [] false
  | last (hlast : ofBeBytes n0 + k + 1 = 256 ^ n0.length) :
      Behind cipher algorithm n0 k e e.ciphertext [] false
  | frame {bytes : List Byte} {es : List Sealed} {clean : Bool}
      (hrange : ofBeBytes n0 + k + 1 < 256 ^ n0.length)
      (hnext : Follows cipher algorithm n0 (k + 1) bytes es clean) :
      Behind cipher algorithm n0 k e (e.ciphertext ++ bytes) (e :: es) clean

theorem Follows.behind {k : Nat} {header bytes : List Byte} {es : List Sealed} {clean : Bool}
    (h : Follows cipher algorithm n0 k (header ++ bytes) es clean)
    (hheader : header.length = aeadFrameHeaderSize) :
    exists e, e.Valid cipher algorithm n0 k ∧
      header = AeadWriteState.frameHeader algorithm e.plaintext ∧
      Behind cipher algorithm n0 k e bytes es clean := by
  generalize hall : header ++ bytes = all at h
  cases h with
  | done =>
    rw [(append_eq_nil_iff.mp hall).1] at hheader
    exact absurd hheader (by decide)
  | cut hvalid hframe hbytes hrest =>
    rename_i e rest
    rw [← hall, Sealed.frame, append_assoc] at hframe
    obtain ⟨hsame, hbehind⟩ := append_inj hframe (hheader.trans (length_frameHeader _).symm)
    exact ⟨e, hvalid, hsame, .cut hrest hbehind⟩
  | last hvalid hlast =>
    rename_i e
    obtain ⟨hsame, hbehind⟩ := append_inj hall (hheader.trans (length_frameHeader _).symm)
    rw [hbehind]
    exact ⟨e, hvalid, hsame, .last hlast⟩
  | frame hvalid hrange hnext =>
    rename_i e bytes' es
    rw [Sealed.frame, append_assoc] at hall
    obtain ⟨hsame, hbehind⟩ := append_inj hall (hheader.trans (length_frameHeader _).symm)
    rw [hbehind]
    exact ⟨e, hvalid, hsame, .frame hrange hnext⟩

theorem Follows.short {k : Nat} {bytes : List Byte} {es : List Sealed} {clean : Bool}
    (h : Follows cipher algorithm n0 k bytes es clean)
    (hshort : bytes.length < aeadFrameHeaderSize) : es = [] ∧ (clean = true ↔ bytes = []) := by
  have hlong : forall (e : Sealed) (more : List Byte),
      ¬ (e.frame algorithm ++ more).length < aeadFrameHeaderSize := by
    intro e more hless
    rw [Sealed.frame, length_append, length_append, length_frameHeader] at hless
    omega
  cases h with
  | done => exact ⟨rfl, fun _ => rfl, fun _ => rfl⟩
  | cut hvalid hframe hbytes hrest =>
    exact ⟨rfl, fun h => absurd h Bool.false_ne_true, fun h => absurd h hbytes⟩
  | last hvalid hlast =>
    rename_i e
    rw [← append_nil (e.frame algorithm)] at hshort
    exact absurd hshort (hlong e [])
  | frame hvalid hrange hnext => exact absurd hshort (hlong _ _)

end Follow

namespace AeadReadState

/-!
## Exact reads
-/

/-- What a read of a given length may do. -/
inductive ExactRule (s : AeadReadState) (source : Source) (len : Nat) :
    Outcome (List Byte) × AeadReadState × Source -> Prop
  | done {got : List Byte} {source' : Source}
      (hbytes : s.resumed len ++ source.bytes = got ++ source'.bytes) (hlength : got.length = len)
      (hsound : source'.Sound) (hweight : source'.weight ≤ source.weight) :
      ExactRule s source len (.ready got, { s with readLen := 0, filled := got }, source')
  | pending {filled : List Byte} {source' : Source}
      (hbytes : s.resumed len ++ source.bytes = filled ++ source'.bytes)
      (hlength : filled.length < len) (hsound : source'.Sound)
      (hweight : source'.weight < source.weight) :
      ExactRule s source len (.pending, { s with readLen := len, filled := filled }, source')
  | ended {filled : List Byte} {source' : Source}
      (hbytes : s.resumed len ++ source.bytes = filled) (hlength : filled.length < len) :
      ExactRule s source len
        (.failed (unexpectedEof len filled.length), { s with readLen := len, filled := filled },
          source')

/-- What the loop of a read may do. -/
inductive LoopRule (len : Nat) (bytes : List Byte) (bound : Nat) :
    Outcome Unit × List Byte × Source -> Prop
  | done {got : List Byte} {source' : Source} (hbytes : bytes = got ++ source'.bytes)
      (hlength : got.length = len) (hsound : source'.Sound) (hweight : source'.weight ≤ bound) :
      LoopRule len bytes bound (.ready (), got, source')
  | pending {filled : List Byte} {source' : Source} (hbytes : bytes = filled ++ source'.bytes)
      (hlength : filled.length < len) (hsound : source'.Sound) (hweight : source'.weight < bound) :
      LoopRule len bytes bound (.pending, filled, source')
  | ended {filled : List Byte} {source' : Source} (hbytes : bytes = filled)
      (hlength : filled.length < len) :
      LoopRule len bytes bound (.failed (unexpectedEof len filled.length), filled, source')

theorem readLoop_rule {len fuel bound : Nat} {source : Source} {filled : List Byte}
    (hsound : source.Sound) (hfilled : filled.length ≤ len) (hfuel : len - filled.length < fuel)
    (hbound : source.weight ≤ bound) :
    LoopRule len (filled ++ source.bytes) bound (readLoop len fuel source filled) := by
  induction fuel generalizing source filled with
  | zero => exact absurd hfuel (Nat.not_lt_zero _)
  | succ fuel ih =>
    rw [readLoop]
    by_cases hall : len ≤ filled.length
    · rw [if_pos hall]
      exact .done rfl (Nat.le_antisymm hfilled hall) hsound hbound
    · rw [if_neg hall]
      have hless := Nat.not_le.mp hall
      have hlater := hsound.pollRead (len - filled.length)
      cases hread : source.pollRead (len - filled.length) with
      | mk outcome source' =>
        rw [hread] at hlater
        cases outcome with
        | pending =>
          obtain ⟨hbytes, hweight⟩ := Source.pollRead_pending hread
          refine .pending ?_ hless hlater (Nat.lt_of_lt_of_le hweight hbound)
          rw [hbytes]
        | failed e => exact absurd hread fun hread => hsound.not_failed hread
        | ready got =>
          obtain ⟨hbytes, hfits⟩ := Source.pollRead_ready hread
          dsimp only
          rcases hsound.read (Nat.sub_pos_of_lt hless) hread with
            ⟨hnil, hscript, _⟩ | ⟨hgot, hweight⟩
          · rw [if_pos hnil]
            refine .ended ?_ hless
            rw [Source.bytes, hscript, flatMap_nil, append_nil]
          · rw [if_neg hgot, hbytes, ← append_assoc]
            have hpos := length_pos_iff.mpr hgot
            apply ih hlater
            · rw [length_append]
              omega
            · rw [length_append]
              omega
            · exact Nat.le_of_lt (Nat.lt_of_lt_of_le hweight hbound)

theorem pollReadExact_rule {s : AeadReadState} {source : Source} {len : Nat}
    (hsound : source.Sound) (hresumed : (s.resumed len).length ≤ len) :
    ExactRule s source len (pollReadExact s source len) := by
  have hloop := readLoop_rule hsound hresumed
    (show len - (s.resumed len).length < len + 1 by omega) (Nat.le_refl source.weight)
  rw [pollReadExact]
  generalize readLoop len (len + 1) source (s.resumed len) = answer at hloop
  cases hloop with
  | done hbytes hlength hsound' hweight => exact .done hbytes hlength hsound' hweight
  | pending hbytes hlength hsound' hweight => exact .pending hbytes hlength hsound' hweight
  | ended hbytes hlength => exact .ended hbytes hlength

/-!
## The state of a reader
-/

/-- The counters of a reader before this frame. -/
structure Counts (n0 : List Byte) (k : Nat) (s : AeadReadState) : Prop where
  headerRead : s.headerRead = true
  streamNonce : s.streamNonce = some n0
  nonce : s.nonce = nonceAt n0 k
  frameCount : s.frameCount = k

/-- The reader is inside the stream nonce, a header or a ciphertext, and owes the payloads of the
whole frames from there on. -/
inductive Reads (cipher : AeadCipher) (algorithm : AeadAlgorithm) (n0 : List Byte) (clean : Bool)
    (s : AeadReadState) (source : Source) (owed : List Byte) : Prop
  /-- The stream ends inside its nonce. -/
  | short (hsound : source.Sound) (herr : s.err = false) (hserved : s.buf.length ≤ s.bufPos)
      (hheader : s.headerRead = false) (hclean : clean = false)
      (hbytes : (s.resumed algorithm.nonceSize ++ source.bytes).length < algorithm.nonceSize)
      (howed : owed = [])
  | nonce {bytes : List Byte} {es : List Sealed} (hsound : source.Sound) (herr : s.err = false)
      (hserved : s.buf.length ≤ s.bufPos) (hheader : s.headerRead = false)
      (hhave : s.headerHave = false) (hcount : s.frameCount = 0)
      (hresumed : (s.resumed algorithm.nonceSize).length ≤ algorithm.nonceSize)
      (hbytes : s.resumed algorithm.nonceSize ++ source.bytes = n0 ++ bytes)
      (hfollows : Follows cipher algorithm n0 0 bytes es clean) (howed : owed = plaintexts es)
  | header {k : Nat} {es : List Sealed} (hsound : source.Sound) (herr : s.err = false)
      (hcounts : Counts n0 k s) (hhave : s.headerHave = false)
      (hresumed : (s.resumed aeadFrameHeaderSize).length ≤ aeadFrameHeaderSize)
      (hfollows : Follows cipher algorithm n0 k (s.resumed aeadFrameHeaderSize ++ source.bytes) es
        clean)
      (howed : owed = s.buf.drop s.bufPos ++ plaintexts es)
  | ciphertext {k : Nat} {es : List Sealed} (hsound : source.Sound) (herr : s.err = false)
      (hcounts : Counts n0 k s) (hserved : s.buf.length ≤ s.bufPos) (hhave : s.headerHave = true)
      (hheader : s.headerBuf.length = aeadFrameHeaderSize)
      (hresumed : (s.resumed (ofBeBytes s.headerBuf)).length ≤ ofBeBytes s.headerBuf)
      (hfollows : Follows cipher algorithm n0 k
        (s.headerBuf ++ (s.resumed (ofBeBytes s.headerBuf) ++ source.bytes)) es clean)
      (howed : owed = plaintexts es)

def measure (_ : AeadReadState) (source : Source) (owed : List Byte) : Nat :=
  source.weight + owed.length

def Final (clean : Bool) (e : Ending) : Prop :=
  e = .eof ↔ clean = true

/-- What the reading of a frame may do. -/
inductive FrameRule (cipher : AeadCipher) (algorithm : AeadAlgorithm) (n0 : List Byte)
    (clean : Bool) (bound : Nat) (owed : List Byte) : Outcome Bool × AeadReadState × Source -> Prop
  | pending {s : AeadReadState} {source : Source}
      (hreads : Reads cipher algorithm n0 clean s source owed) (hweight : source.weight < bound) :
      FrameRule cipher algorithm n0 clean bound owed (.pending, s, source)
  | frame {s : AeadReadState} {source : Source}
      (hreads : Reads cipher algorithm n0 clean s source owed) (hbuf : s.bufPos < s.buf.length)
      (hweight : source.weight ≤ bound) :
      FrameRule cipher algorithm n0 clean bound owed (.ready true, s, source)
  | eof {s : AeadReadState} {source : Source} (howed : owed = []) (hclean : clean = true) :
      FrameRule cipher algorithm n0 clean bound owed (.ready false, s, source)
  | failed {s : AeadReadState} {source : Source} {e : IoError} (howed : owed = [])
      (hclean : clean = false) :
      FrameRule cipher algorithm n0 clean bound owed (.failed e, s, source)

section Frames

variable {cipher : AeadCipher} {algorithm : AeadAlgorithm} {n0 : List Byte} {clean : Bool}
  {s : AeadReadState} {source : Source} {owed : List Byte}

theorem FrameRule.mono {bound bound' : Nat} {answer : Outcome Bool × AeadReadState × Source}
    (h : FrameRule cipher algorithm n0 clean bound owed answer) (hle : bound ≤ bound') :
    FrameRule cipher algorithm n0 clean bound' owed answer := by
  cases h with
  | pending hreads hweight => exact .pending hreads (Nat.lt_of_lt_of_le hweight hle)
  | frame hreads hbuf hweight => exact .frame hreads hbuf (Nat.le_trans hweight hle)
  | eof howed hclean => exact .eof howed hclean
  | failed howed hclean => exact .failed howed hclean

theorem openFrame_valid {k : Nat} {e : Sealed} (hcounts : Counts n0 k s)
    (hvalid : e.Valid cipher algorithm n0 k)
    (hheader : s.headerBuf = AeadWriteState.frameHeader algorithm e.plaintext) :
    openFrame cipher s e.ciphertext =
      if (ofBeBytes n0 + k) % 256 ^ n0.length + 1 = 256 ^ n0.length then
        (.error (AeadWriteState.otherError "AEAD read nonce exhausted"),
          { s with nonce := nonceAt n0 (k + 1) })
      else
        (.ok (), { s with
          nonce := nonceAt n0 (k + 1)
          frameCount := s.frameCount + 1
          headerHave := false
          buf := e.plaintext
          bufPos := 0 }) := by
  have hopens : cipher.decrypt s.nonce e.ciphertext (s.streamNonce.getD [] ++ s.headerBuf) =
      .ok e.plaintext := by
    rw [hcounts.nonce, hcounts.streamNonce, Option.getD_some, hheader, ← hvalid.aad,
      ← hvalid.nonce]
    exact hvalid.opens
  obtain ⟨hnext, hwraps⟩ := incrementNonce_nonceAt n0 k
  rw [← hcounts.nonce] at hnext hwraps
  rw [openFrame]
  rw [hopens]
  dsimp only
  rw [hnext]
  by_cases hlast : (ofBeBytes n0 + k) % 256 ^ n0.length + 1 = 256 ^ n0.length
  · rw [if_pos hlast, if_pos (hwraps.mpr hlast)]
  · rw [if_neg hlast, if_neg fun h => hlast (hwraps.mp h)]

theorem header_passes {k : Nat} {e : Sealed} (hcounts : Counts n0 k s)
    (hvalid : e.Valid cipher algorithm n0 k) :
    algorithm.maxFrameCount.any (fun max => max ≤ s.frameCount) = false ∧
      ¬ e.ciphertext.length < algorithm.overhead ∧
      ¬ defaultMaxPayloadSize + algorithm.overhead < e.ciphertext.length := by
  have hshort := hvalid.short
  rw [hvalid.length]
  refine ⟨?_, by omega, by omega⟩
  cases hmax : algorithm.maxFrameCount with
  | none => rfl
  | some max =>
    have hless := hvalid.counted max hmax
    rw [Option.any_some, decide_eq_false_iff_not, hcounts.frameCount]
    omega

theorem resumed_self {len : Nat} {filled : List Byte} :
    resumed { s with readLen := len, filled := filled } len = filled :=
  if_pos rfl

theorem readCiphertext_rule {k : Nat} {es : List Sealed} (hsound : source.Sound)
    (herr : s.err = false) (hcounts : Counts n0 k s) (hserved : s.buf.length ≤ s.bufPos)
    (hhave : s.headerHave = true) (hheader : s.headerBuf.length = aeadFrameHeaderSize)
    (hresumed : (s.resumed (ofBeBytes s.headerBuf)).length ≤ ofBeBytes s.headerBuf)
    (hfollows : Follows cipher algorithm n0 k
      (s.headerBuf ++ (s.resumed (ofBeBytes s.headerBuf) ++ source.bytes)) es clean) :
    FrameRule cipher algorithm n0 clean source.weight (plaintexts es)
      (readCiphertext cipher algorithm s source) := by
  obtain ⟨e, hvalid, hsame, hbehind⟩ := hfollows.behind hheader
  have hlen : ofBeBytes s.headerBuf = e.ciphertext.length := by
    rw [hsame]
    exact hvalid.header_length
  obtain ⟨hcount, hlong, hfits⟩ := header_passes hcounts hvalid
  have hexact := pollReadExact_rule hsound hresumed
  rw [readCiphertext]
  rw [hcount, if_neg Bool.false_ne_true, hlen, if_neg hlong, if_neg hfits, ← hlen]
  generalize pollReadExact s source (ofBeBytes s.headerBuf) = answer at hexact
  cases hexact with
  | pending hbytes hlength hsound' hweight =>
    rename_i filled source'
    refine .pending (.ciphertext hsound' herr
      ⟨hcounts.headerRead, hcounts.streamNonce, hcounts.nonce, hcounts.frameCount⟩ hserved hhave
      hheader ?_ ?_ rfl) hweight
    · rw [resumed_self]
      exact Nat.le_of_lt hlength
    · rw [resumed_self, ← hbytes]
      exact hfollows
  | ended hbytes hlength =>
    rename_i filled source'
    rw [hbytes] at hbehind
    rw [hlen] at hlength
    cases hbehind with
    | cut hrest hcut => exact .failed rfl rfl
    | last hlast => exact absurd hlength (Nat.lt_irrefl _)
    | frame hrange hnext =>
      rw [length_append] at hlength
      omega
  | done hbytes hlength hsound' hweight =>
    rename_i got source'
    rw [hbytes] at hbehind
    rw [hlen] at hlength
    generalize hall : got ++ source'.bytes = all at hbehind
    cases hbehind with
    | cut hrest hcut =>
      rename_i rest
      have hpos := length_pos_iff.mpr hrest
      rw [← hall] at hcut
      have htotal := congrArg length hcut
      rw [length_append, length_append] at htotal
      omega
    | last hlast =>
      have hgot : got = e.ciphertext := by
        rw [← append_nil e.ciphertext] at hall
        exact (append_inj hall hlength).1
      have hopen := @openFrame_valid cipher algorithm n0
        { s with readLen := 0, filled := got } k e
        ⟨hcounts.headerRead, hcounts.streamNonce, hcounts.nonce, hcounts.frameCount⟩ hvalid hsame
      rw [if_pos (by rw [Nat.mod_eq_of_lt (by omega)]; exact hlast)] at hopen
      rw [hgot] at hopen ⊢
      dsimp only
      rw [hopen]
      exact .failed rfl rfl
    | frame hrange hnext =>
      rename_i bytes es
      obtain ⟨hgot, hrest⟩ := append_inj hall hlength
      have hopen := @openFrame_valid cipher algorithm n0
        { s with readLen := 0, filled := got } k e
        ⟨hcounts.headerRead, hcounts.streamNonce, hcounts.nonce, hcounts.frameCount⟩ hvalid hsame
      rw [if_neg (by rw [Nat.mod_eq_of_lt (by omega)]; omega)] at hopen
      rw [hgot] at hopen ⊢
      dsimp only
      rw [hopen]
      refine .frame (.header hsound' herr ⟨hcounts.headerRead, hcounts.streamNonce, rfl, ?_⟩ rfl
        ?_ ?_ rfl) (length_pos_iff.mpr hvalid.nonempty) hweight
      · rw [hcounts.frameCount]
      · exact Nat.zero_le _
      · change Follows cipher algorithm n0 (k + 1) ([] ++ source'.bytes) es clean
        rw [nil_append, hrest]
        exact hnext

theorem readHeader_rule {k : Nat} {es : List Sealed} (hsound : source.Sound)
    (herr : s.err = false) (hcounts : Counts n0 k s) (hserved : s.buf.length ≤ s.bufPos)
    (hhave : s.headerHave = false)
    (hresumed : (s.resumed aeadFrameHeaderSize).length ≤ aeadFrameHeaderSize)
    (hfollows : Follows cipher algorithm n0 k (s.resumed aeadFrameHeaderSize ++ source.bytes) es
      clean) :
    FrameRule cipher algorithm n0 clean source.weight (plaintexts es)
      (readHeader cipher algorithm s source) := by
  have hexact := pollReadExact_rule hsound hresumed
  rw [readHeader, hhave, if_neg Bool.false_ne_true]
  generalize pollReadExact s source aeadFrameHeaderSize = answer at hexact
  cases hexact with
  | pending hbytes hlength hsound' hweight =>
    rename_i filled source'
    refine .pending (@Reads.header _ _ _ _ _ _ _ k es hsound' herr
      ⟨hcounts.headerRead, hcounts.streamNonce, hcounts.nonce, hcounts.frameCount⟩ hhave ?_ ?_ ?_)
      hweight
    · exact Nat.le_of_lt hlength
    · rw [resumed_self, ← hbytes]
      exact hfollows
    · rw [drop_eq_nil_of_le hserved, nil_append]
  | ended hbytes hlength =>
    rw [hbytes] at hfollows
    obtain ⟨hes, hclean⟩ := hfollows.short hlength
    rw [hes]
    dsimp only
    split
    · rename_i hzero
      exact .eof rfl (hclean.mpr hzero.2)
    · rename_i hpart
      refine .failed rfl ?_
      rw [Bool.eq_false_iff]
      intro htrue
      exact hpart ⟨rfl, hclean.mp htrue⟩
  | done hbytes hlength hsound' hweight =>
    rename_i got source'
    rw [hbytes] at hfollows
    obtain ⟨e, hvalid, hsame, _⟩ := hfollows.behind hlength
    have hlen : 0 < ofBeBytes got := by
      rw [hsame, hvalid.header_length, hvalid.length]
      exact Nat.lt_of_lt_of_le (Nat.succ_pos 15) (Nat.le_add_left _ _)
    have hfresh : resumed { s with
        readLen := 0
        filled := got
        headerBuf := got
        headerHave := true } (ofBeBytes got) = [] := if_neg (Nat.ne_of_lt hlen)
    dsimp only
    generalize hnext : ({ s with
      readLen := 0
      filled := got
      headerBuf := got
      headerHave := true } : AeadReadState) = st at hfresh
    have hbuf : st.headerBuf = got := by rw [← hnext]
    rw [← hbuf] at hfresh hlength hfollows
    refine (@readCiphertext_rule cipher algorithm n0 clean st source' k es hsound' ?_ ?_ ?_ ?_
      hlength ?_ ?_).mono hweight
    · rw [← hnext]
      exact herr
    · rw [← hnext]
      exact ⟨hcounts.headerRead, hcounts.streamNonce, hcounts.nonce, hcounts.frameCount⟩
    · rw [← hnext]
      exact hserved
    · rw [← hnext]
    · rw [hfresh]
      exact Nat.zero_le _
    · rw [hfresh]
      exact hfollows

theorem pollReadFrame_rule (hsize : n0.length = algorithm.nonceSize)
    (h : Reads cipher algorithm n0 clean s source owed) (hserved : s.buf.length ≤ s.bufPos) :
    FrameRule cipher algorithm n0 clean source.weight owed
      (pollReadFrame cipher algorithm s source) := by
  rw [pollReadFrame]
  cases h with
  | short hsound herr hserved hheader hclean hbytes howed =>
    rw [hheader, if_neg Bool.false_ne_true, hclean, howed]
    have htotal := hbytes
    rw [length_append] at htotal
    have hexact := pollReadExact_rule hsound
      (show (s.resumed algorithm.nonceSize).length ≤ algorithm.nonceSize by omega)
    generalize pollReadExact s source algorithm.nonceSize = answer at hexact
    cases hexact with
    | pending hbytes' hlength hsound' hweight =>
      refine .pending (.short hsound' herr hserved hheader rfl ?_ rfl) hweight
      rw [resumed_self, ← hbytes']
      exact hbytes
    | ended hbytes' hlength => exact .failed rfl rfl
    | done hbytes' hlength hsound' hweight =>
      rw [hbytes', length_append] at hbytes
      omega
  | nonce hsound herr hserved hheader hhave hcount hresumed hbytes hfollows howed =>
    rename_i bytes es
    rw [hheader, if_neg Bool.false_ne_true, howed]
    have hexact := pollReadExact_rule hsound hresumed
    generalize pollReadExact s source algorithm.nonceSize = answer at hexact
    cases hexact with
    | pending hbytes' hlength hsound' hweight =>
      refine .pending (.nonce hsound' herr hserved hheader hhave hcount ?_ ?_ hfollows rfl)
        hweight
      · rw [resumed_self]
        exact Nat.le_of_lt hlength
      · rw [resumed_self, ← hbytes']
        exact hbytes
    | ended hbytes' hlength =>
      rw [hbytes'] at hbytes
      rw [hbytes, length_append] at hlength
      omega
    | done hbytes' hlength hsound' hweight =>
      rename_i got source'
      rw [hbytes'] at hbytes
      obtain ⟨hgot, hrest⟩ := append_inj hbytes (hlength.trans hsize.symm)
      rw [hgot]
      refine (@readHeader_rule cipher algorithm n0 clean { s with
        readLen := 0
        filled := n0
        nonce := n0
        streamNonce := some n0
        headerRead := true } source' 0 es hsound' herr
        ⟨rfl, rfl, (nonceAt_zero n0).symm, hcount⟩ hserved hhave (Nat.zero_le _) ?_).mono hweight
      change Follows cipher algorithm n0 0 ([] ++ source'.bytes) es clean
      rw [nil_append, hrest]
      exact hfollows
  | header hsound herr hcounts hhave hresumed hfollows howed =>
    rename_i k es
    rw [hcounts.headerRead, if_pos rfl, howed, drop_eq_nil_of_le hserved]
    exact readHeader_rule hsound herr hcounts hserved hhave hresumed hfollows
  | ciphertext hsound herr hcounts hserved hhave hheader hresumed hfollows howed =>
    rw [hcounts.headerRead, if_pos rfl, howed, readHeader, hhave, if_pos rfl]
    exact readCiphertext_rule hsound herr hcounts hserved hhave hheader hresumed hfollows

theorem serve_rule (h : Reads cipher algorithm n0 clean s source owed)
    (hbuf : s.bufPos < s.buf.length) {cap : Nat} (hcap : 0 < cap) :
    exists later, owed = (s.serve cap).1 ++ later ∧ (s.serve cap).1 ≠ [] ∧
      Reads cipher algorithm n0 clean (s.serve cap).2 source later := by
  cases h with
  | short hsound herr hserved hheader hclean hbytes howed =>
    exact absurd hbuf (Nat.not_lt.mpr hserved)
  | nonce hsound herr hserved hheader hhave hcount hresumed hbytes hfollows howed =>
    exact absurd hbuf (Nat.not_lt.mpr hserved)
  | ciphertext hsound herr hcounts hserved hhave hheader hresumed hfollows howed =>
    exact absurd hbuf (Nat.not_lt.mpr hserved)
  | header hsound herr hcounts hhave hresumed hfollows howed =>
    rename_i k es
    obtain ⟨hheaderRead, hstream, hnonce, hcount⟩ := hcounts
    refine ⟨s.buf.drop (s.bufPos + cap) ++ plaintexts es, ?_, ?_, ?_⟩
    · rw [howed, serve, ← append_assoc, ← drop_drop, take_append_drop]
    · apply length_pos_iff.mp
      rw [serve, length_take, length_drop]
      omega
    · rw [serve]
      split
      · rename_i hall
        refine .header hsound herr ⟨hheaderRead, hstream, hnonce, hcount⟩ hhave hresumed hfollows ?_
        rw [drop_eq_nil_of_le hall]
        rfl
      · exact .header hsound herr ⟨hheaderRead, hstream, hnonce, hcount⟩ hhave hresumed hfollows rfl

end Frames

theorem Reads.err_eq {cipher : AeadCipher} {algorithm : AeadAlgorithm} {n0 : List Byte}
    {clean : Bool} {s : AeadReadState} {source : Source} {owed : List Byte}
    (h : Reads cipher algorithm n0 clean s source owed) : s.err = false := by
  cases h with
  | short hsound herr => exact herr
  | nonce hsound herr => exact herr
  | header hsound herr => exact herr
  | ciphertext hsound herr => exact herr

/-- A reader delivers the payloads of the whole frames, and ends the stream as it should. -/
theorem serves {cipher : AeadCipher} {algorithm : AeadAlgorithm} {n0 : List Byte}
    (hsize : n0.length = algorithm.nonceSize) (clean : Bool) :
    (aeadReader cipher algorithm).Serves (Reads cipher algorithm n0 clean) measure (Final clean)
      (fun _ _ cap => 0 < cap) := by
  intro s source owed cap hreads hcap
  have hserve : forall (s' : AeadReadState) (source' : Source),
      Reads cipher algorithm n0 clean s' source' owed -> s'.bufPos < s'.buf.length ->
      source'.weight ≤ source.weight ->
      PollRule (Reads cipher algorithm n0 clean) measure (Final clean) (measure s source owed) owed
        (.ready (s'.serve cap).1, (s'.serve cap).2, source') := by
    intro s' source' hreads' hbuf hweight
    obtain ⟨later, howed, hgot, hlater⟩ := serve_rule hreads' hbuf hcap
    refine .data hgot howed hlater ?_
    have htotal := congrArg length howed
    have hpos := length_pos_iff.mpr hgot
    rw [length_append] at htotal
    rw [measure, measure]
    omega
  change PollRule _ _ _ _ _ (pollRead cipher algorithm s source cap)
  rw [pollRead, hreads.err_eq, if_neg Bool.false_ne_true, if_neg (Nat.pos_iff_ne_zero.mp hcap)]
  by_cases hbuf : s.bufPos < s.buf.length
  · rw [if_pos hbuf]
    exact hserve s source hreads hbuf (Nat.le_refl _)
  · rw [if_neg hbuf]
    have hframe := pollReadFrame_rule hsize hreads (Nat.not_lt.mp hbuf)
    generalize pollReadFrame cipher algorithm s source = answer at hframe
    cases hframe with
    | pending hreads' hweight =>
      refine .pending hreads' ?_
      rw [measure, measure]
      omega
    | frame hreads' hbuf' hweight => exact hserve _ _ hreads' hbuf' hweight
    | eof howed hclean =>
      refine .eof howed ⟨fun _ => hclean, fun _ => rfl⟩
    | failed howed hclean =>
      refine .failed howed ⟨fun h => Ending.noConfusion h, fun h => ?_⟩
      rw [hclean] at h
      cases h

end AeadReadState

end Stream
end FrpRs
