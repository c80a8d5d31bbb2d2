import FrpRs.Client.Registration

/-!
# What the registration phase leaves

The phase of every proxy after `register_proxies`, and the bytes it has taken from the stream.  Both
are as they should be unless the answer to a proxy times out while visitors are pending: then the
loop goes on without the bytes of the header it has dropped.
-/

namespace FrpRs
namespace Client

open List Bytes

namespace Registration

variable {setup : RegSetup} {r : Registration}

/-- When the time for a proxy's answer is over, no visitor is pending, or the session ends because
a payload is under way. -/
def TimesOutAlone (r : Registration) (e : RegEvent) : Prop :=
  e = .timer -> r.pendingProxies ≠ [] ->
    r.pendingVisitors = [] ∨ exists hdr got, r.readStage = some (.payload hdr got)

theorem ne_nil_of_not_isEmpty {l : List Text} (h : (!l.isEmpty) = true) : l ≠ [] := by
  rintro rfl
  cases h

theorem finished_loopTop (h : r.finished = true) : r.loopTop.finished = true := by
  unfold loopTop
  repeat' split
  all_goals first | rfl | exact h

theorem finished_loopTop_of_empty (hproxies : r.pendingProxies = []) (hstage : r.readStage = none)
    (hvisitors : r.pendingVisitors = [] ∨ r.visitorGraceElapsed = true) :
    r.loopTop.finished = true := by
  unfold loopTop
  rw [hproxies, hstage]
  split
  · rfl
  · split
    · rfl
    · rename_i hgrace
      have hnone : r.pendingVisitors = [] := by
        rcases hvisitors with hnone | helapsed
        · exact hnone
        · rw [helapsed] at hgrace
          cases hlist : r.pendingVisitors with
          | nil => rfl
          | cons name names =>
            rw [hlist] at hgrace
            exact absurd rfl hgrace
      rw [hnone]
      rfl

/-!
## The stream
-/

theorem regHeaderLen_le (v2 : Bool) : regHeaderLen v2 ≤ 9 := by
  cases v2 <;> decide

def WholeFrame (v2 : Bool) (frame : List Byte) : Prop :=
  exists hdr, regFrameHeader v2 (frame.take (regHeaderLen v2)) = some hdr ∧
    frame.length = regHeaderLen v2 + hdr.payloadLen

/-- `rest` is what the read under way has taken. -/
def Boundary (v2 : Bool) (rest : List Byte) : Option RegReadStage -> Prop
  | none => rest = []
  | some (.header got) => rest = got ∧ got.length < regHeaderLen v2
  | some (.payload hdr got) => exists header, header.length = regHeaderLen v2 ∧
      regFrameHeader v2 header = some hdr ∧ rest = header ++ got ∧ got.length ≤ hdr.payloadLen

/-- The bytes taken so far: a frame for every message that was dispatched, and the rest. -/
structure Taken (v2 : Bool) (consumed : List Byte) (count : Nat) (frames : List (List Byte))
    (rest : List Byte) : Prop where
  consumed : consumed = frames.flatten ++ rest
  whole : forall frame, frame ∈ frames -> WholeFrame v2 frame
  dispatched : frames.length = count

structure Framed (v2 : Bool) (r : Registration) (frames : List (List Byte)) (rest : List Byte) :
    Prop where
  taken : Taken v2 r.consumed r.dispatched.length frames rest
  running : r.finished = false -> Boundary v2 rest r.readStage
  left : r.finished = true -> r.aborted = false -> rest.length ≤ 8

variable {frames : List (List Byte)} {rest : List Byte}

theorem Framed.abort (h : Framed setup.v2 r frames rest) : Framed setup.v2 r.abort frames rest :=
  ⟨h.taken, nofun, nofun⟩

theorem framed_loopTop (htaken : Taken setup.v2 r.consumed r.dispatched.length frames rest)
    (hrunning : r.finished = false) (hrest : Boundary setup.v2 rest r.readStage) :
    Framed setup.v2 r.loopTop frames rest := by
  have hshort (hnone : r.readStage.isNone = true) : rest = [] := by
    rw [Option.isNone_iff_eq_none.mp hnone] at hrest
    exact hrest
  unfold loopTop
  split
  · rename_i haborted
    exact ⟨htaken, nofun, fun _ hok => absurd (haborted.symm.trans hok) (by decide)⟩
  · split
    · rename_i hgrace
      rw [Bool.and_eq_true, Bool.and_eq_true, Bool.and_eq_true] at hgrace
      exact ⟨htaken, nofun, fun _ _ => hshort hgrace.1.1.2 ▸ Nat.zero_le 8⟩
    · split
      · rename_i hdone
        rw [Bool.and_eq_true] at hdone
        exact ⟨htaken, nofun, fun _ _ => hshort hdone.2 ▸ Nat.zero_le 8⟩
      · split
        · rename_i hnone
          refine ⟨htaken, fun _ => ⟨hshort hnone, ?_⟩, fun hfinished _ => ?_⟩
          · cases setup.v2 <;> decide
          · exact absurd (hrunning.symm.trans hfinished) Bool.false_ne_true
        · refine ⟨htaken, fun _ => hrest, fun hfinished _ => ?_⟩
          exact absurd (hrunning.symm.trans hfinished) Bool.false_ne_true

theorem framed_endIteration (htaken : Taken setup.v2 r.consumed r.dispatched.length frames rest)
    (hrunning : r.finished = false) (hrest : Boundary setup.v2 rest r.readStage) :
    Framed setup.v2 r.endIteration frames rest := by
  unfold endIteration
  split <;> exact framed_loopTop htaken hrunning hrest

theorem framed_dispatch (htaken : Taken setup.v2 r.consumed r.dispatched.length frames [])
    (hrunning : r.finished = false) (hstage : r.readStage = none) (m : RegMessage) :
    Framed setup.v2 (r.dispatch setup m) frames [] := by
  have hrest : Boundary setup.v2 [] r.readStage := by
    rw [hstage]
    rfl
  cases m with
  | newProxyResp name error =>
    unfold dispatch
    dsimp only
    split
    · exact framed_endIteration htaken hrunning hrest
    · exact framed_loopTop htaken hrunning hrest
  | newVisitorConnResp name error =>
    unfold dispatch
    dsimp only
    split
    · exact framed_endIteration htaken hrunning hrest
    · exact framed_loopTop htaken hrunning hrest
  | reqWorkConn => exact framed_endIteration htaken hrunning hrest
  | other => exact framed_endIteration htaken hrunning hrest

def InFrames (v2 : Bool) (r : Registration) : Prop :=
  exists frames rest, Framed v2 r frames rest

theorem inFrames_payloadRead (htaken : Taken setup.v2 r.consumed r.dispatched.length frames rest)
    (hrunning : r.finished = false) {hdr : RegFrameHdr} {header payload : List Byte}
    (hheader : header.length = regHeaderLen setup.v2)
    (hparsed : regFrameHeader setup.v2 header = some hdr) (hrest : rest = header ++ payload)
    (hfull : payload.length = hdr.payloadLen) :
    InFrames setup.v2 (r.payloadRead setup hdr payload) := by
  unfold payloadRead
  split
  · exact ⟨frames, rest, htaken, nofun, nofun⟩
  · rename_i m _
    refine ⟨frames ++ [rest], [], framed_dispatch ⟨?_, ?_, ?_⟩ (by exact hrunning) rfl m⟩
    · rw [flatten_append, flatten_singleton, append_nil]
      exact htaken.consumed
    · intro frame hframe
      obtain hold | hnew := mem_append.mp hframe
      · exact htaken.whole frame hold
      · rw [mem_singleton.mp hnew, hrest]
        refine ⟨hdr, ?_, ?_⟩
        · rw [<- hheader, take_left]
          exact hparsed
        · rw [length_append, hheader, hfull]
    · rw [length_append, length_append, htaken.dispatched]
      rfl

variable {u : Registration}

/-- A header that is dropped is the last thing read. -/
theorem framed_cancelled (h : Framed setup.v2 r frames rest) (hrunning : r.finished = false)
    {got : List Byte} (hstage : r.readStage = some (.header got))
    (hconsumed : u.consumed = r.consumed) (hdispatched : u.dispatched = r.dispatched)
    (hends : u.loopTop.finished = true) : Framed setup.v2 u.endIteration frames rest := by
  have hgot := h.running hrunning
  rw [hstage] at hgot
  have hlength : rest.length ≤ 8 := by
    rw [hgot.1]
    exact Nat.le_of_lt_succ (Nat.lt_of_lt_of_le hgot.2 (regHeaderLen_le setup.v2))
  have htaken : Taken setup.v2 u.consumed u.dispatched.length frames rest := by
    rw [hconsumed, hdispatched]
    exact h.taken
  unfold endIteration
  split
  · rw [loopTop, if_pos rfl]
    exact ⟨htaken, fun hrunning => Bool.noConfusion hrunning, fun _ _ => hlength⟩
  · refine ⟨?_, fun hopen => ?_, fun _ _ => hlength⟩
    · rw [(loopTop_same u).2.2.2.2.1, (loopTop_same u).2.1]
      exact htaken
    · exact absurd (hopen.symm.trans hends) Bool.false_ne_true

theorem Framed.onByte (h : Framed setup.v2 r frames rest) (hrunning : r.finished = false)
    (b : Byte) : InFrames setup.v2 (r.onByte setup b) := by
  have htaken : Taken setup.v2 (r.consumed ++ [b]) r.dispatched.length frames (rest ++ [b]) := by
    refine ⟨?_, h.taken.whole, h.taken.dispatched⟩
    rw [h.taken.consumed, append_assoc]
  have hopen (u : Registration) (hu : u.finished = r.finished) :
      u.finished = true -> u.aborted = false -> (rest ++ [b]).length ≤ 8 := by
    intro hfinished
    exact absurd ((hu.trans hrunning).symm.trans hfinished) Bool.false_ne_true
  have hrest := h.running hrunning
  unfold Registration.onByte
  split
  · exact ⟨frames, rest, h⟩
  · rename_i got hstage
    rw [hstage] at hrest
    dsimp only
    split
    · rename_i hfull
      unfold headerRead
      split
      · exact ⟨frames, rest ++ [b], htaken, nofun, nofun⟩
      · rename_i hdr hparsed
        refine ⟨frames, rest ++ [b], framed_endIteration htaken hrunning ?_⟩
        refine ⟨got ++ [b], ?_, hparsed, ?_, Nat.zero_le _⟩
        · rw [length_append]
          exact hfull
        · rw [hrest.1, append_nil]
    · rename_i hpart
      refine ⟨frames, rest ++ [b], htaken, fun _ => ⟨by rw [hrest.1], ?_⟩, hopen _ rfl⟩
      have hshort := hrest.2
      rw [length_append, length_singleton]
      omega
  · rename_i hdr got hstage
    rw [hstage] at hrest
    obtain ⟨header, hheader, hparsed, heq, _⟩ := hrest
    have heq' : rest ++ [b] = header ++ (got ++ [b]) := by
      rw [heq, append_assoc]
    split
    · rename_i hroom
      dsimp only
      split
      · rename_i hfull
        refine inFrames_payloadRead htaken (by exact hrunning) hheader hparsed heq' ?_
        rw [length_append]
        exact hfull
      · refine ⟨frames, rest ++ [b], htaken, fun _ => ?_, hopen _ rfl⟩
        refine ⟨header, hheader, hparsed, heq', ?_⟩
        rw [length_append]
        exact hroom
    · exact ⟨frames, rest, h⟩

theorem Framed.onTimer (h : Framed setup.v2 r frames rest) (hrunning : r.finished = false)
    (halone : r.TimesOutAlone .timer) : Framed setup.v2 (r.onTimer setup) frames rest := by
  unfold Registration.onTimer
  split
  · rename_i hpending
    unfold cancelHeader failPendingProxies
    dsimp only
    split
    · rename_i got hstage
      rcases halone rfl (ne_nil_of_not_isEmpty hpending) with hvisitors | ⟨hdr, taken, hpayload⟩
      · exact framed_cancelled h hrunning hstage rfl rfl
          (finished_loopTop_of_empty rfl rfl (.inl hvisitors))
      · cases hstage.symm.trans hpayload
    · exact ⟨h.taken, nofun, nofun⟩
    · exact framed_endIteration h.taken hrunning (h.running hrunning)
  · rename_i hnone
    have hproxies : r.pendingProxies = [] := isEmpty_iff.mp (by simpa using hnone)
    split
    · dsimp only
      split
      · rename_i got hstage
        exact framed_cancelled h hrunning hstage rfl rfl
          (finished_loopTop_of_empty hproxies rfl (.inr rfl))
      · exact framed_endIteration h.taken hrunning (h.running hrunning)
    · rename_i hgrace
      unfold cancelHeader
      split
      · rename_i got hstage
        refine framed_cancelled h hrunning hstage rfl rfl
          (finished_loopTop_of_empty hproxies rfl ?_)
        cases hlist : r.pendingVisitors with
        | nil => exact .inl rfl
        | cons name names =>
          refine .inr (Bool.eq_true_of_not_eq_false ?_)
          intro helapsed
          rw [hlist, helapsed] at hgrace
          exact hgrace rfl
      · exact ⟨h.taken, nofun, nofun⟩
      · exact framed_endIteration h.taken hrunning (h.running hrunning)

theorem InFrames.step {e : RegEvent} (h : InFrames setup.v2 r) (halone : r.TimesOutAlone e) :
    InFrames setup.v2 (r.step setup e) := by
  obtain ⟨frames, rest, h⟩ := h
  unfold Registration.step
  split
  · exact ⟨frames, rest, h⟩
  · rename_i hfinished
    have hrunning := Bool.eq_false_of_not_eq_true hfinished
    cases e with
    | byte b => exact h.onByte hrunning b
    | poll =>
      dsimp only
      unfold onPoll
      split
      · rename_i hdr got hstage
        have hrest := h.running hrunning
        rw [hstage] at hrest
        obtain ⟨header, hheader, hparsed, heq, _⟩ := hrest
        split
        · rename_i hfull
          exact inFrames_payloadRead h.taken hrunning hheader hparsed heq hfull
        · exact ⟨frames, rest, h⟩
      · exact ⟨frames, rest, h⟩
    | timer => exact ⟨frames, rest, h.onTimer hrunning halone⟩
    | failed => exact ⟨frames, rest, h.abort⟩
    | watchdog => exact ⟨frames, rest, h.abort⟩
    | stop => exact ⟨frames, rest, h.abort⟩

/-!
## The phases
-/

def answerTo (name : Text) : RegMessage × Bool -> Option (Option Text)
  | (.newProxyResp n error, _) => if n = name then some error else none
  | _ => none

/-- The first answer dispatched for a name; `some none` is one without an error. -/
def firstAnswer (dispatched : List (RegMessage × Bool)) (name : Text) : Option (Option Text) :=
  dispatched.findSome? (answerTo name)

/-- Running after a first answer without an error, failed otherwise. -/
def Decided (r : Registration) (name : Text) : Prop :=
  exists info, r.service.proxyInfoMap.lookup name = some info ∧
    if firstAnswer r.dispatched name = some none then info.phase = .running
    else exists e, info.phase = .startErr e

structure Settled (names : List Text) (r : Registration) : Prop where
  nodup : r.pendingProxies.Nodup
  asked : forall name, name ∈ r.pendingProxies -> firstAnswer r.dispatched name = none
  registered : forall name, name ∈ names -> (r.service.proxyInfoMap.lookup name).isSome = true
  decided : forall name, name ∈ names -> name ∉ r.pendingProxies -> Decided r name
  answered : r.finished = false -> forall name, name ∈ names -> name ∉ r.pendingProxies ->
    firstAnswer r.dispatched name ≠ none

variable {names : List Text}

theorem firstAnswer_append (dispatched : List (RegMessage × Bool)) (m : RegMessage × Bool)
    (name : Text) :
    firstAnswer (dispatched ++ [m]) name = (firstAnswer dispatched name).or (answerTo name m) := by
  rw [firstAnswer, findSome?_append, findSome?_singleton]
  rfl

theorem Settled.same (h : Settled names r) (hpending : u.pendingProxies = r.pendingProxies)
    (hservice : u.service = r.service) (hdispatched : u.dispatched = r.dispatched)
    (hfinished : u.finished = false -> r.finished = false) : Settled names u := by
  constructor
  · exact hpending ▸ h.nodup
  · rw [hpending, hdispatched]
    exact h.asked
  · exact hservice ▸ h.registered
  · unfold Decided
    rw [hpending, hservice, hdispatched]
    exact h.decided
  · rw [hpending, hdispatched]
    exact fun hrunning => h.answered (hfinished hrunning)

theorem Settled.loopTop (h : Settled names r) : Settled names r.loopTop := by
  obtain ⟨_, hdispatched, hservice, hpending, _⟩ := loopTop_same r
  refine h.same hpending hservice hdispatched ?_
  intro hrunning
  refine Bool.eq_false_of_not_eq_true ?_
  intro hfinished
  exact absurd (hrunning.symm.trans (finished_loopTop hfinished)) Bool.false_ne_true

theorem Settled.endIteration (h : Settled names r) : Settled names r.endIteration := by
  unfold Registration.endIteration
  split
  · have haborted : Settled names { r with aborted := true } := h.same rfl rfl rfl id
    exact haborted.loopTop
  · exact h.loopTop

theorem Settled.abort (h : Settled names r) : Settled names r.abort :=
  h.same rfl rfl rfl nofun

theorem swapRemove_perm {l : List Text} {pos : Nat} (h : pos < l.length) :
    swapRemove l pos ~ l.eraseIdx pos := by
  induction l using List.reverseRecOn with
  | nil => cases h
  | append_singleton init last _ =>
    have hset := set_perm_cons_eraseIdx h last
    rw [swapRemove, getLast?_concat]
    dsimp only
    by_cases hinit : pos < init.length
    · rw [set_append_left _ _ hinit, dropLast_concat]
      rw [set_append_left _ _ hinit] at hset
      exact (perm_cons last).mp ((perm_append_singleton last _).symm.trans hset)
    · have hlast : pos = init.length := by
        rw [length_append, length_singleton] at h
        omega
      simp [hlast, eraseIdx_append_of_length_le]

theorem swapRemove_idxOf {l : List Text} {name : Text} (h : name ∈ l) :
    swapRemove l (l.idxOf name) ~ l.erase name := by
  rw [erase_eq_eraseIdx_of_idxOf rfl]
  exact swapRemove_perm (idxOf_lt_length_of_mem h)

theorem Settled.answer (h : Settled names r) {name : Text} (hname : name ∈ r.pendingProxies)
    (error : Option Text) (expected : Bool) :
    Settled names { r with
      seenRegistrationResponse := true
      readStage := none
      dispatched := r.dispatched ++ [(.newProxyResp name error, expected)]
      pendingProxies := swapRemove r.pendingProxies (r.pendingProxies.idxOf name)
      service := r.service.setInfo name (ProxyRuntimeInfo.answered error) } := by
  have hperm := swapRemove_idxOf hname
  have hmem (n : Text) :
      n ∈ swapRemove r.pendingProxies (r.pendingProxies.idxOf name) ↔
        n ≠ name ∧ n ∈ r.pendingProxies :=
    hperm.mem_iff.trans h.nodup.mem_erase_iff
  have hother {n : Text} (hne : n ≠ name) :
      firstAnswer (r.dispatched ++ [(.newProxyResp name error, expected)]) n =
        firstAnswer r.dispatched n := by
    rw [firstAnswer_append, answerTo, if_neg (Ne.symm hne), Option.or_none]
  have hself : firstAnswer (r.dispatched ++ [(.newProxyResp name error, expected)]) name =
      some error := by
    rw [firstAnswer_append, h.asked name hname, answerTo, if_pos rfl]
    rfl
  have hdecided (n : Text) (hn : n ∈ names)
      (hfree : n ∉ swapRemove r.pendingProxies (r.pendingProxies.idxOf name)) :
      n = name ∨ n ≠ name ∧ n ∉ r.pendingProxies := by
    rw [hmem] at hfree
    by_cases heq : n = name
    · exact .inl heq
    · exact .inr ⟨heq, fun hpending => hfree ⟨heq, hpending⟩⟩
  constructor
  · exact hperm.nodup_iff.mpr (h.nodup.erase name)
  · intro n hn
    obtain ⟨hne, hn⟩ := (hmem n).mp hn
    exact (hother hne).trans (h.asked n hn)
  · intro n hn
    dsimp only
    rw [lookup_setInfo]
    split
    · rename_i heq
      rw [Option.isSome_map, <- heq]
      exact h.registered n hn
    · exact h.registered n hn
  · intro n hn hfree
    unfold Decided
    dsimp only
    rw [lookup_setInfo]
    rcases hdecided n hn hfree with rfl | ⟨hne, hfree⟩
    · obtain ⟨info, hinfo⟩ := Option.isSome_iff_exists.mp (h.registered n hn)
      rw [if_pos rfl, hinfo, hself]
      refine ⟨_, rfl, ?_⟩
      cases error with
      | none => rfl
      | some e => exact ⟨e, rfl⟩
    · rw [if_neg hne, hother hne]
      exact h.decided n hn hfree
  · intro hrunning n hn hfree
    rcases hdecided n hn hfree with rfl | ⟨hne, hfree⟩
    · exact hself ▸ nofun
    · rw [hother hne]
      exact h.answered hrunning n hn hfree

theorem Settled.ignore (h : Settled names r) (hrunning : r.finished = false) {m : RegMessage}
    {expected : Bool}
    (hm : forall name, name ∈ r.pendingProxies -> answerTo name (m, expected) = none)
    (hpending : u.pendingProxies = r.pendingProxies) (hservice : u.service = r.service)
    (hdispatched : u.dispatched = r.dispatched ++ [(m, expected)]) :
    Settled names u := by
  have hanswered {n : Text} (hn : n ∈ names) (hfree : n ∉ r.pendingProxies) :
      firstAnswer u.dispatched n = firstAnswer r.dispatched n := by
    rw [hdispatched, firstAnswer_append]
    obtain ⟨answer, hanswer⟩ := Option.ne_none_iff_exists'.mp (h.answered hrunning n hn hfree)
    rw [hanswer]
    rfl
  constructor
  · exact hpending ▸ h.nodup
  · intro n hn
    rw [hpending] at hn
    rw [hdispatched, firstAnswer_append, h.asked n hn, hm n hn]
    rfl
  · exact hservice ▸ h.registered
  · intro n hn hfree
    rw [hpending] at hfree
    unfold Decided
    rw [hservice, hanswered hn hfree]
    exact h.decided n hn hfree
  · intro _ n hn hfree
    rw [hpending] at hfree
    rw [hanswered hn hfree]
    exact h.answered hrunning n hn hfree

theorem Settled.payloadRead (h : Settled names r) (hrunning : r.finished = false)
    (hdr : RegFrameHdr) (payload : List Byte) :
    Settled names (r.payloadRead setup hdr payload) := by
  unfold Registration.payloadRead
  split
  · exact h.abort
  · rename_i m _
    cases m with
    | newProxyResp name error =>
      unfold dispatch
      dsimp only
      split
      · rename_i hname
        exact (h.answer (contains_iff_mem.mp hname) error _).endIteration
      · rename_i hname
        refine Settled.loopTop (h.ignore hrunning ?_ rfl rfl rfl)
        intro n hn
        rw [answerTo, if_neg]
        rintro rfl
        exact hname (contains_iff_mem.mpr hn)
    | newVisitorConnResp name error =>
      unfold dispatch
      dsimp only
      split
      · exact Settled.endIteration (h.ignore hrunning (fun _ _ => rfl) rfl rfl rfl)
      · exact Settled.loopTop (h.ignore hrunning (fun _ _ => rfl) rfl rfl rfl)
    | reqWorkConn => exact Settled.endIteration (h.ignore hrunning (fun _ _ => rfl) rfl rfl rfl)
    | other => exact Settled.endIteration (h.ignore hrunning (fun _ _ => rfl) rfl rfl rfl)

theorem lookup_foldl_fail (error : Text) (list : List Text) (s : Service) (name : Text) :
    (list.foldl (fun s n => s.setInfo n (ProxyRuntimeInfo.fail error)) s).proxyInfoMap.lookup name =
      if name ∈ list then (s.proxyInfoMap.lookup name).map (ProxyRuntimeInfo.fail error)
      else s.proxyInfoMap.lookup name := by
  induction list generalizing s with
  | nil => rfl
  | cons n list ih =>
    rw [foldl_cons, ih, lookup_setInfo]
    by_cases heq : name = n
    · subst heq
      rw [if_pos rfl, if_pos mem_cons_self]
      split
      · rw [Option.map_map]
        rfl
      · rfl
    · simp [heq]

theorem Settled.failPending (h : Settled names r) (error : Text) (hpending : u.pendingProxies = [])
    (hservice : u.service = (r.failPendingProxies error).service)
    (hdispatched : u.dispatched = r.dispatched) (hfinished : u.finished = true) :
    Settled names u := by
  constructor
  · rw [hpending]
    exact nodup_nil
  · rw [hpending]
    exact nofun
  · intro n hn
    rw [hservice, failPendingProxies]
    dsimp only
    rw [lookup_foldl_fail]
    split
    · rw [Option.isSome_map]
      exact h.registered n hn
    · exact h.registered n hn
  · intro n hn _
    unfold Decided
    rw [hservice, hdispatched, failPendingProxies]
    dsimp only
    rw [lookup_foldl_fail]
    split
    · rename_i hmem
      obtain ⟨info, hinfo⟩ := Option.isSome_iff_exists.mp (h.registered n hn)
      rw [hinfo, h.asked n hmem]
      exact ⟨_, rfl, error, rfl⟩
    · rename_i hmem
      exact h.decided n hn hmem
  · exact fun hrunning => absurd (hrunning.symm.trans hfinished) Bool.false_ne_true

theorem Settled.failPending_endIteration (h : Settled names r) (error : Text)
    (hpending : u.pendingProxies = []) (hservice : u.service = (r.failPendingProxies error).service)
    (hdispatched : u.dispatched = r.dispatched) (hstage : u.readStage = none)
    (hvisitors : u.pendingVisitors = []) : Settled names u.endIteration := by
  unfold Registration.endIteration
  split
  · rw [Registration.loopTop, if_pos rfl]
    exact h.failPending error hpending hservice hdispatched rfl
  · obtain ⟨_, hdispatched', hservice', hpending', _⟩ := loopTop_same u
    exact h.failPending error (hpending'.trans hpending) (hservice'.trans hservice)
      (hdispatched'.trans hdispatched)
      (finished_loopTop_of_empty hpending hstage (.inl hvisitors))

theorem Settled.onTimer (h : Settled names r) (halone : r.TimesOutAlone .timer) :
    Settled names (r.onTimer setup) := by
  unfold Registration.onTimer
  split
  · rename_i hpending
    have hsome := ne_nil_of_not_isEmpty hpending
    unfold cancelHeader failPendingProxies
    dsimp only
    rcases halone rfl hsome with hvisitors | ⟨hdr, taken, hpayload⟩
    · split
      · exact h.failPending_endIteration setup.timedOut rfl rfl rfl rfl hvisitors
      · exact h.failPending setup.timedOut rfl rfl rfl rfl
      · rename_i hstage
        exact h.failPending_endIteration setup.timedOut rfl rfl rfl hstage hvisitors
    · rw [hpayload]
      exact h.failPending setup.timedOut rfl rfl rfl rfl
  · split
    · dsimp only
      split
      · exact Settled.endIteration (h.same rfl rfl rfl id)
      · exact Settled.endIteration (h.same rfl rfl rfl id)
    · unfold cancelHeader
      split
      · exact Settled.endIteration (h.same rfl rfl rfl id)
      · exact h.abort
      · exact h.endIteration

theorem Settled.step (h : Settled names r) {e : RegEvent} (halone : r.TimesOutAlone e) :
    Settled names (r.step setup e) := by
  unfold Registration.step
  split
  · exact h
  · rename_i hfinished
    have hrunning := Bool.eq_false_of_not_eq_true hfinished
    cases e with
    | byte b =>
      dsimp only
      unfold onByte
      split
      · exact h
      · dsimp only
        split
        · unfold headerRead
          split
          · exact h.same rfl rfl rfl nofun
          · exact Settled.endIteration (h.same rfl rfl rfl id)
        · exact h.same rfl rfl rfl id
      · rename_i hdr got _
        split
        · have hnext : Settled names { r with
              consumed := r.consumed ++ [b]
              readStage := some (.payload hdr (got ++ [b])) } := h.same rfl rfl rfl id
          dsimp only
          split
          · exact hnext.payloadRead hrunning hdr _
          · exact hnext
        · exact h
    | poll =>
      dsimp only
      unfold onPoll
      split
      · split
        · exact h.payloadRead hrunning _ _
        · exact h
      · exact h
    | timer => exact h.onTimer halone
    | failed => exact h.abort
    | watchdog => exact h.abort
    | stop => exact h.abort

/-!
## The requests
-/

/-- The wire names of the proxies that no monitor registers. -/
def requested (user : Text) (proxies : List ProxyConfig) : List Text :=
  (proxies.filter fun p => !healthCheckMonitored p).map fun p => wireProxyName user p.name

theorem foldl_registerProxy (writeError : Text -> Option Text) (proxies : List ProxyConfig)
    (u : Session × List Message) :
    let v := (proxies.foldl (registerProxy writeError) u).1
    v.pending = u.1.pending ++
      (requested u.1.cfgUser proxies).filter (fun n => (writeError n).isNone) ∧
    forall name, v.service.proxyInfoMap.lookup name =
      if name ∈ requested u.1.cfgUser proxies then
        (writeError name).elim (u.1.service.proxyInfoMap.lookup name) fun e =>
          (u.1.service.proxyInfoMap.lookup name).map (ProxyRuntimeInfo.fail e)
      else u.1.service.proxyInfoMap.lookup name := by
  induction proxies generalizing u with
  | nil => exact ⟨(append_nil _).symm, fun _ => rfl⟩
  | cons p proxies ih =>
    have hnext := ih (registerProxy writeError u p)
    by_cases hmonitored : healthCheckMonitored p = true
    · rw [registerProxy, if_pos hmonitored] at hnext
      rw [foldl_cons, registerProxy, if_pos hmonitored, requested, filter_cons, hmonitored]
      exact hnext
    · have hcons : requested u.1.cfgUser (p :: proxies) =
          wireProxyName u.1.cfgUser p.name :: requested u.1.cfgUser proxies := by
        rw [requested, filter_cons, Bool.eq_false_of_not_eq_true hmonitored]
        rfl
      rw [foldl_cons, hcons]
      cases hwrite : writeError (wireProxyName u.1.cfgUser p.name) with
      | none =>
        have hstep : (registerProxy writeError u p).1 =
            { u.1 with pending := u.1.pending ++ [wireProxyName u.1.cfgUser p.name] } := by
          simp only [registerProxy, if_neg hmonitored, hwrite]
        rw [hstep] at hnext
        refine ⟨?_, fun name => ?_⟩
        · rw [hnext.1, filter_cons, hwrite, append_assoc]
          rfl
        · rw [hnext.2 name]
          by_cases heq : name = wireProxyName u.1.cfgUser p.name
          · simp [heq, hwrite]
          · simp [heq]
      | some e =>
        have hstep : (registerProxy writeError u p).1 =
            { u.1 with service :=
                u.1.service.setInfo (wireProxyName u.1.cfgUser p.name) (ProxyRuntimeInfo.fail e) } := by
          simp only [registerProxy, if_neg hmonitored, hwrite]
        rw [hstep] at hnext
        refine ⟨?_, fun name => ?_⟩
        · rw [hnext.1, filter_cons, hwrite]
          rfl
        · rw [hnext.2 name, lookup_setInfo]
          by_cases heq : name = wireProxyName u.1.cfgUser p.name
          · subst heq
            rw [if_pos rfl, if_pos mem_cons_self, hwrite]
            split
            · rw [Option.elim, Option.map_map]
              rfl
            · rfl
          · simp [heq]

theorem start_settled {s : Service} {user : Text} {proxies : List ProxyConfig}
    (hdistinct : (proxies.map ProxyConfig.name).Nodup)
    (hregistered : forall p, p ∈ proxies ->
      (s.proxyInfoMap.lookup (wireProxyName user p.name)).isSome = true)
    (visitors : List SessionVisitor) (writeError : Text -> Option Text)
    (visitorError : Nat -> Bool) :
    Settled (requested user proxies)
      (start s user proxies visitors writeError visitorError) := by
  obtain ⟨hpending, hlookup⟩ := foldl_registerProxy writeError proxies (⟨s, user, [], ∅⟩, [])
  have hinfo (name : Text) (hname : name ∈ requested user proxies) :
      exists info, s.proxyInfoMap.lookup name = some info := by
    obtain ⟨p, hp, rfl⟩ := mem_map.mp hname
    exact Option.isSome_iff_exists.mp (hregistered p (mem_filter.mp hp).1)
  have hnodup : (requested user proxies).Nodup := by
    have hfiltered := hdistinct.sublist (Sublist.map ProxyConfig.name (filter_sublist
      (p := fun p => !healthCheckMonitored p)))
    have hwire := hfiltered.map (wireProxyName_injective user)
    rw [map_map] at hwire
    exact hwire
  have hmem (name : Text) : name ∈ (requested user proxies).filter (fun n => (writeError n).isNone) ↔
      name ∈ requested user proxies ∧ writeError name = none := by
    rw [mem_filter, Option.isNone_iff_eq_none]
  have hsettled (u : Registration)
      (hservice : u.service =
        (proxies.foldl (registerProxy writeError) (⟨s, user, [], ∅⟩, [])).1.service)
      (hasked : u.pendingProxies = (requested user proxies).filter fun n => (writeError n).isNone)
      (hnew : u.dispatched = [])
      (hopen : u.finished = false -> forall name, name ∈ requested user proxies ->
        writeError name = none) : Settled (requested user proxies) u := by
    constructor
    · rw [hasked]
      exact hnodup.filter _
    · rw [hnew]
      exact fun _ _ => rfl
    · intro name hname
      obtain ⟨info, hinfo⟩ := hinfo name hname
      rw [hservice, hlookup, if_pos hname, hinfo]
      cases writeError name <;> rfl
    · intro name hname hfree
      rw [hasked, hmem] at hfree
      obtain ⟨info, hinfo⟩ := hinfo name hname
      unfold Decided
      rw [hservice, hlookup, if_pos hname, hinfo, hnew]
      cases hwrite : writeError name with
      | none => exact absurd ⟨hname, hwrite⟩ hfree
      | some e => exact ⟨_, rfl, e, rfl⟩
    · intro hrunning name hname hfree
      rw [hasked, hmem] at hfree
      exact absurd ⟨hname, hopen hrunning name hname⟩ hfree
  unfold start
  dsimp only
  by_cases hrefused : ((proxies.filter fun p => !healthCheckMonitored p).any fun p =>
      (writeError (wireProxyName user p.name)).isSome) = true
  · rw [hrefused, Bool.true_or, loopTop, if_pos rfl]
    exact hsettled _ rfl hpending rfl fun hrunning => Bool.noConfusion hrunning
  · refine Settled.loopTop (hsettled _ rfl hpending rfl ?_)
    intro _ name hname
    obtain ⟨p, hp, rfl⟩ := mem_map.mp hname
    refine Option.not_isSome_iff_eq_none.mp ?_
    intro hsome
    exact hrefused (any_eq_true.mpr ⟨p, hp, hsome⟩)

/-- Nothing is pending, every proxy without a monitor has the phase of its first answer, and after
a phase that did not abort the stream is at the end of a frame, or in the header of one. -/
structure Outcome (setup : RegSetup) (user : Text) (proxies : List ProxyConfig)
    (r : Registration) : Prop where
  noProxies : r.finish.1.pendingProxies = []
  noVisitors : r.finish.1.pendingVisitors = []
  decided : forall p, p ∈ proxies -> healthCheckMonitored p = false ->
    Decided r.finish.1 (wireProxyName user p.name)
  stream : r.finish.2 = true -> exists frames rest,
    Taken setup.v2 r.consumed r.dispatched.length frames rest ∧ rest.length ≤ 8

theorem registration_outcome {setup : RegSetup} {s : Service} {user : Text}
    {proxies : List ProxyConfig} (hdistinct : (proxies.map ProxyConfig.name).Nodup)
    (hregistered : forall p, p ∈ proxies ->
      (s.proxyInfoMap.lookup (wireProxyName user p.name)).isSome = true)
    {visitors : List SessionVisitor} {writeError : Text -> Option Text}
    {visitorError : Nat -> Bool} {es : List RegEvent}
    (halone : Run.Along (step setup) TimesOutAlone
      (start s user proxies visitors writeError visitorError) es)
    (hfinished :
      (Run.run (step setup) (start s user proxies visitors writeError visitorError) es).finished =
        true) :
    Outcome setup user proxies
      (Run.run (step setup) (start s user proxies visitors writeError visitorError) es) := by
  have hsettled := Run.run_invariant (fun _ _ h he => h.step he)
    (start_settled hdistinct hregistered visitors writeError visitorError) halone
  have hstart : InFrames setup.v2 (start s user proxies visitors writeError visitorError) :=
    ⟨[], [], framed_loopTop ⟨rfl, nofun, rfl⟩ rfl rfl⟩
  obtain ⟨frames, rest, hframed⟩ := Run.run_invariant (fun _ _ h he => h.step he) hstart halone
  have hend := hsettled.failPending "registration aborted (no response)".toList
    (u := { (Run.run (step setup) (start s user proxies visitors writeError
      visitorError) es).finish.1 with finished := true }) rfl rfl rfl rfl
  constructor
  · rfl
  · rfl
  · intro p hp hmonitored
    refine hend.decided _ (mem_map.mpr ⟨p, mem_filter.mpr ⟨hp, ?_⟩, rfl⟩) nofun
    rw [hmonitored]
    rfl
  · intro htrue
    refine ⟨frames, rest, hframed.taken, hframed.left hfinished ?_⟩
    exact Bool.not_inj htrue

/-- A version 1 session whose answers are the bare name of a proxy that has started. -/
def namingSetup : RegSetup where
  v2 := false
  poolCount := 1
  timedOut := "timed out".toList
  deserializeV1 := fun type payload =>
    if type = 50 then some (.newProxyResp (payload.map fun b => Char.ofNat b.toNat) none) else none
  deserializeV2 := fun _ _ => none

def pairService : Service :=
  let single := singleService [] "p".toList
  let second := runtimeInfo plainPrinting ∅ (tcpProxy "q".toList)
  { single with proxyInfoMap := single.proxyInfoMap.insert "q".toList second }

/-- The first proxy is answered, and the time of the second one is over. -/
def halfAnswered : List RegEvent :=
  [50, 0, 0, 0, 0, 0, 0, 0, 1, 112].map .byte ++ [.timer]

theorem registration_outcome_half :
    Outcome namingSetup [] [tcpProxy "p".toList, tcpProxy "q".toList]
      (Run.run (step namingSetup) (start pairService []
        [tcpProxy "p".toList, tcpProxy "q".toList] [] (fun _ => none) fun _ => false)
        halfAnswered) := by
  refine registration_outcome (by decide) (by decide +kernel) ?_ (by decide +kernel)
  rw [halfAnswered, Run.along_append]
  refine ⟨Run.along_of_forall ?_, fun _ _ => .inl ?_, trivial⟩
  · intro r e he htimer
    rw [htimer] at he
    simp at he
  · exact length_eq_zero_iff.mp (by decide +kernel)
/-- A version 1 session; no answer is read. -/
def quietSetup : RegSetup where
  v2 := false
  poolCount := 1
  timedOut := []
  deserializeV1 := fun _ _ => none
  deserializeV2 := fun _ _ => none

/-- The proxy and the visitor time out one after the other, each with eight bytes of a header. -/
theorem two_headers_dropped :
    ¬ forall setup s user proxies visitors writeError visitorError es,
      (proxies.map ProxyConfig.name).Nodup ->
      (forall p, p ∈ proxies ->
        (s.proxyInfoMap.lookup (wireProxyName user p.name)).isSome = true) ->
      RegEvent.stop ∉ es ->
      (Run.run (step setup) (start s user proxies visitors writeError visitorError) es).finished =
        true ->
      Outcome setup user proxies
        (Run.run (step setup) (start s user proxies visitors writeError visitorError) es) := by
  intro h
  have houtcome := h quietSetup (singleService [] "p".toList) [] [tcpProxy "p".toList]
    [⟨[], "v".toList, 1, true⟩] (fun _ => none) (fun _ => false)
    (replicate 8 (.byte 0) ++ .timer :: (replicate 8 (.byte 0) ++ [.timer]))
    (nodup_singleton _) ?_ ?_ ?_
  · obtain ⟨frames, rest, htaken, hlength⟩ := houtcome.stream rfl
    have hnone : frames = [] := length_eq_zero_iff.mp htaken.dispatched
    have hbytes := congrArg length htaken.consumed
    rw [hnone] at hbytes
    change 16 = rest.length at hbytes
    omega
  · intro p hp
    rw [mem_singleton.mp hp]
    decide
  · simp
  · decide

end Registration
end Client
end FrpRs
