/-
The file of the agent's ID across crashes (`LoadUUID` and `SaveUUID` in
`volta_collector_client.cc`).

An ID is written to a temporary file, which is renamed.  Any call may fail, and the
process may be killed at any call; the next one finds the files as they are.  One
agent runs at a time.

* `Stored` — what the files may hold;
* `id_kept` — an ID that is once in `agent.uuid` stays, and is the one that every
  later start loads that can read it; it is whole unless writing it has failed.
-/
import Volta.Calls
import Volta.Client

namespace Volta

namespace AgentIdFile

open Calls (Program Interface Safe perform safe_bind)

/-! ### The files -/

inductive Call where
  /-- The line `Received ID from server`. -/
  | print (uuid : String)
  | fileExists
  | openTmp
  /-- A character more in the temporary file. -/
  | write (c : Char)
  | rename
  /-- The first line of `agent.uuid`, if it can be opened. -/
  | readLine

def Reply : Call → Type
  | .print _ => Unit
  | .fileExists => Bool
  | .openTmp => Bool
  | .write _ => Bool
  | .rename => Bool
  | .readLine => Option String

structure State where
  files : Files := {}
  /-- History: the IDs that were received. -/
  received : List String := []
  /-- History: the temporary file could not be opened, or not be written since. -/
  failed : Bool := false
  /-- History: it was renamed all the same. -/
  failedRenamed : Bool := false
  /-- History: `agent.uuid` was there and could not be opened, or not be read to the
  end of its first line, the last time. -/
  unread : Bool := false

/-- A beginning of an ID that was received. -/
def PartOf (received : List String) (content : String) : Prop :=
  ∃ uuid ∈ received, uuid ≠ "" ∧ content.toList <+: uuid.toList

namespace State

/-- `agent.uuid` is never replaced, and nothing else is written than IDs. -/
def allows (s : State) : Call → Prop
  | .print _ => True
  | .fileExists => True
  | .openTmp => PartOf s.received ""
  | .write c => ∃ content, s.files.tmp = some content ∧ PartOf s.received (content.push c)
  | .rename => s.files.uuid = none ∧ ∀ content ∈ s.files.tmp,
      PartOf s.received content ∧ (s.failed = false → content ∈ s.received ∧ content ≠ "")
  | .readLine => True

/-- `agent.uuid` may not open, and reading it may break off. -/
def replies (s : State) : (c : Call) → Reply c → Bool
  | .fileExists, true => s.files.uuid.isSome
  | .fileExists, false => s.files.uuid.isNone
  | .rename, true => s.files.tmp.isSome
  | .readLine, some line =>
      s.files.uuid.any fun content => line.toList.isPrefixOf (getline content).toList
  | _, _ => true

def next (s : State) : (c : Call) → Reply c → State
  | .print uuid, () => { s with received := s.received ++ [uuid] }
  | .openTmp, true => { s with files.tmp := some "", failed := false }
  | .openTmp, false => { s with failed := true }
  | .write c, true =>
      { s with files.tmp := s.files.tmp.map fun content => content.push c }
  | .write _, false => { s with failed := true }
  | .rename, true =>
      { s with files := { uuid := s.files.tmp, tmp := none }, failedRenamed := s.failed }
  | .readLine, (line : Option String) =>
      { s with unread := line ≠ s.files.uuid.map getline }
  | _, _ => s

end State

def interface : Interface Reply State where
  allows := State.allows
  replies := State.replies
  next := State.next

def print (uuid : String) : Program Reply Unit := perform (Call.print uuid)

def fileExists : Program Reply Bool := perform Call.fileExists

def openTmp : Program Reply Bool := perform Call.openTmp

def write (c : Char) : Program Reply Bool := perform (Call.write c)

def rename : Program Reply Bool := perform Call.rename

def readLine : Program Reply (Option String) := perform Call.readLine

/-! ### The client -/

def loadUUID (out : String) : Program Reply (String × Bool) := do
  match ← readLine with
  | none => pure (out, false)
  | some line => pure (line, line ≠ "")

/-- `Connect` up to `Await`. -/
def connect (c : Client) : Program Reply Client := do
  let (id, _) ← loadUUID c.id
  pure { c with id := id, connectReactor := some .init }

def writeAll : List Char → Program Reply Unit
  | [] => pure ()
  | c :: cs => do
      if ← write c then writeAll cs else pure ()

/-- The block of the stream; nobody asks it whether it has failed. -/
def writeTmp (uuid : String) : Program Reply Unit := do
  if ← openTmp then writeAll uuid.toList else pure ()

/-- `none` is an exception. -/
def saveUUID (c : Client) (uuid : String) : Program Reply (Option Client) :=
  if uuid = "" then
    pure (c.enqueueWrite
      (ConnectReactor.createMessage .error "Empty UUID received from server"))
  else do
    if ← fileExists then
      pure (c.enqueueWrite
        (ConnectReactor.createMessage .error "UUID file already exists on agent"))
    else do
      writeTmp uuid
      if ← rename then pure (some { c with id := uuid }) else pure none

/-- What `OnMessage` does with a `MESSAGE_ID`. -/
def onId (c : Client) (uuid : String) : Program Reply (Option Client) := do
  print uuid
  saveUUID c uuid

inductive Op where
  | connect
  | receive (uuid : String)

/-- A process connects once, and then messages come.  One that an exception ends is
followed by another. -/
def program (op : Op) (c : Client) : Option (Program Reply Client) :=
  match op, c.connectReactor with
  | .connect, none => some (connect c)
  | .receive uuid, some _ => some do
      let r ← onId c uuid
      pure (r.getD {})
  | _, _ => none

/-! ### What the files may hold -/

theorem PartOf.mono {received received' : List String} {content : String}
    (h : PartOf received content) (hsub : received ⊆ received') : PartOf received' content := by
  obtain ⟨uuid, hmem, hne, hpre⟩ := h
  exact ⟨uuid, hsub hmem, hne, hpre⟩

theorem partOf_of_start {received : List String} {uuid content : String}
    (hmem : uuid ∈ received) (hne : uuid ≠ "") (hpre : content.toList <+: uuid.toList) :
    PartOf received content :=
  ⟨uuid, hmem, hne, hpre⟩

structure Stored (s : State) : Prop where
  uuid : ∀ content ∈ s.files.uuid, PartOf s.received content ∧
    (s.failedRenamed = false → content ∈ s.received ∧ content ≠ "")
  tmp : ∀ content ∈ s.files.tmp, PartOf s.received content

theorem stored_init : Stored {} := ⟨nofun, nofun⟩

/-- Whatever is called, the files hold what they may. -/
theorem Stored.next {s : State} (h : Stored s) (c : Call) (r : Reply c) (hc : s.allows c) :
    Stored (s.next c r) := by
  cases c with
  | print uuid =>
    have hsub : s.received ⊆ s.received ++ [uuid] := List.subset_append_left _ _
    refine ⟨fun content hcontent => ?_, fun content hcontent => (h.tmp content hcontent).mono hsub⟩
    obtain ⟨hpart, hwhole⟩ := h.uuid content hcontent
    exact ⟨hpart.mono hsub, fun hok => ⟨hsub (hwhole hok).1, (hwhole hok).2⟩⟩
  | fileExists => cases r <;> exact h
  | openTmp =>
    cases r with
    | false => exact ⟨h.uuid, h.tmp⟩
    | true =>
      refine ⟨h.uuid, fun content hcontent => ?_⟩
      cases hcontent
      exact hc
  | write c =>
    cases r with
    | false => exact ⟨h.uuid, h.tmp⟩
    | true =>
      obtain ⟨content, htmp, hpart⟩ := hc
      refine ⟨h.uuid, fun content' hcontent => ?_⟩
      change content' ∈ s.files.tmp.map _ at hcontent
      rw [htmp] at hcontent
      cases hcontent
      exact hpart
  | rename =>
    cases r with
    | false => exact h
    | true => exact ⟨hc.2, nofun⟩
  | readLine => exact ⟨h.uuid, h.tmp⟩

/-- `agent.uuid` stays as it is. -/
theorem uuid_next {s : State} {content : String} (h : s.files.uuid = some content) (c : Call)
    (r : Reply c) (hc : s.allows c) : (s.next c r).files.uuid = some content := by
  cases c with
  | print uuid => exact h
  | rename => exact absurd (h.symm.trans hc.1) (Option.some_ne_none content)
  | write c => cases r <;> exact h
  | readLine => exact h
  | fileExists | openTmp => cases r <;> exact h

/-! ### Saving -/

section Saving

variable {s t : State} {c : Client} {uuid : String} {β : Type} {Q : β → State → Prop}

/-- What has been written is a beginning of the ID, and all of it if nothing has
failed. -/
theorem safe_writeAll (done : List Char) {cs : List Char} (hdone : uuid.toList = done ++ cs)
    (hmem : uuid ∈ s.received) (hne : uuid ≠ "") (htmp : s.files.tmp = some (String.ofList done)) :
    Safe interface (writeAll cs)
      (fun _ t => ∃ written, t.files =
          { s.files with tmp := some (String.ofList (uuid.toList.take written)) } ∧
        t.received = s.received ∧ t.failedRenamed = s.failedRenamed ∧
        (t.failed = false → uuid.toList.length ≤ written)) s := by
  induction cs generalizing s done with
  | nil =>
    rw [List.append_nil] at hdone
    refine ⟨uuid.toList.length, ?_, rfl, rfl, fun _ => le_rfl⟩
    rw [List.take_length, hdone, ← htmp]
  | cons c cs ih =>
    have hpush : (String.ofList done).push c = String.ofList (done ++ [c]) := by
      rw [← String.toList_inj, String.toList_push, String.toList_ofList, String.toList_ofList]
    have hnext : uuid.toList = (done ++ [c]) ++ cs := by
      rw [hdone, List.append_assoc, List.singleton_append]
    refine ⟨⟨_, htmp, ?_⟩, fun r _ => ?_⟩
    · rw [hpush]
      refine partOf_of_start hmem hne ?_
      rw [String.toList_ofList, hnext]
      exact List.prefix_append _ _
    cases r with
    | false =>
      refine ⟨done.length, ?_, rfl, rfl, nofun⟩
      rw [hdone, List.take_left, ← htmp]
      rfl
    | true =>
      have htmp' : (s.next (.write c) true).files.tmp = some (String.ofList (done ++ [c])) := by
        show s.files.tmp.map _ = _
        rw [htmp, Option.map_some, hpush]
      exact ih (s := s.next (.write c) true) _ hnext hmem htmp'

/-- The temporary file has a beginning of the ID, or what it had if it could not be
opened. -/
theorem safe_writeTmp (hmem : uuid ∈ s.received) (hne : uuid ≠ "") :
    Safe interface (writeTmp uuid)
      (fun _ t => ∃ (opened : Bool) (written : ℕ), t.files = { s.files with
          tmp := if opened then some (String.ofList (uuid.toList.take written))
            else s.files.tmp } ∧
        t.received = s.received ∧ t.failedRenamed = s.failedRenamed ∧
        (t.failed = false → opened = true ∧ uuid.toList.length ≤ written)) s := by
  refine ⟨partOf_of_start hmem hne (List.nil_prefix), fun r _ => ?_⟩
  cases r with
  | false => exact ⟨false, 0, rfl, rfl, rfl, nofun⟩
  | true =>
    refine Calls.Safe.imp (safe_writeAll [] rfl hmem hne rfl) ?_
    rintro u t ⟨written, hfiles, hreceived, hrenamed, hwhole⟩
    exact ⟨true, written, hfiles, hreceived, hrenamed, fun hok => ⟨rfl, hwhole hok⟩⟩

/-- `SaveUUID` does what the client does when its file steps come out in some way;
with no file there, it stores the ID whole or has failed. -/
theorem safe_saveUUID (c : Client) (h : Stored s) (hmem : uuid ∈ s.received) :
    Safe interface (saveUUID c uuid)
      (fun r t => (∃ o, (t.files, r) = c.saveUUID s.files uuid o) ∧
        (s.files.uuid = none → uuid ≠ "" → r.isSome → t.failedRenamed = false →
          t.files.uuid = some uuid)) s := by
  rw [saveUUID]
  split
  · rename_i hempty
    refine ⟨⟨⟨true, 0, true⟩, ?_⟩, fun _ hne => absurd hempty hne⟩
    rw [Client.saveUUID, if_pos hempty]
  · rename_i hne
    refine ⟨trivial, fun found hfound => ?_⟩
    cases found with
    | true =>
      have hsome : s.files.uuid.isSome = true := hfound
      refine ⟨⟨⟨true, 0, true⟩, ?_⟩, fun hnone => ?_⟩
      · rw [Client.saveUUID, if_neg hne, if_pos hsome]
        rfl
      · exact absurd hsome (by simp [hnone])
    | false =>
      have hnone : s.files.uuid = none := Option.isNone_iff_eq_none.mp hfound
      show Safe interface (writeTmp uuid >>= _) _ s
      rw [safe_bind]
      refine (safe_writeTmp hmem hne).imp ?_
      rintro u t ⟨opened, written, hfiles, hreceived, hrenamed, hwhole⟩
      have hsome : ¬ s.files.uuid.isSome := by simp [hnone]
      have hleft : c.saveUUID s.files uuid ⟨opened, written, false⟩ = (t.files, none) := by
        rw [Client.saveUUID, if_neg hne, if_neg hsome]
        exact congrArg (fun files => (files, none)) hfiles.symm
      have hrename : ∀ content, t.files.tmp = some content →
          c.saveUUID s.files uuid ⟨opened, written, true⟩
            = ({ uuid := some content, tmp := none }, some { c with id := uuid }) := by
        intro content hcontent
        rw [hfiles] at hcontent
        rw [Client.saveUUID, if_neg hne, if_neg hsome]
        cases opened with
        | false => simp only [show s.files.tmp = some content from hcontent, Bool.false_eq_true,
            if_false]
        | true =>
          cases hcontent
          rfl
      refine ⟨⟨?_, fun content hcontent => ?_⟩, fun done hdone => ?_⟩
      · rw [hfiles]
        exact hnone
      · rw [hreceived]
        cases opened with
        | false =>
          rw [hfiles] at hcontent
          exact ⟨h.tmp content hcontent, fun hok => absurd (hwhole hok).1 (by simp)⟩
        | true =>
          rw [hfiles] at hcontent
          cases hcontent
          refine ⟨partOf_of_start hmem hne ?_, fun hok => ?_⟩
          · rw [String.toList_ofList]
            exact List.take_prefix _ _
          · rw [List.take_of_length_le (hwhole hok).2, String.ofList_toList]
            exact ⟨hmem, hne⟩
      · cases done with
        | false =>
          refine ⟨⟨⟨opened, written, false⟩, ?_⟩, by simp⟩
          exact hleft.symm
        | true =>
          have htmp : t.files.tmp.isSome = true := hdone
          obtain ⟨content, hcontent⟩ := Option.isSome_iff_exists.mp htmp
          refine ⟨⟨⟨opened, written, true⟩, ?_⟩, fun _ _ _ hok => ?_⟩
          · rw [hrename content hcontent]
            show (Files.mk t.files.tmp none, _) = _
            rw [hcontent]
          · obtain ⟨hopened, hlength⟩ := hwhole hok
            show t.files.tmp = some uuid
            rw [hfiles, hopened]
            show some (String.ofList (uuid.toList.take written)) = some uuid
            rw [List.take_of_length_le hlength, String.ofList_toList]

theorem safe_onId (c : Client) (uuid : String) (h : Stored s) :
    Safe interface (onId c uuid)
      (fun r t => (∃ o, (t.files, r) = c.saveUUID s.files uuid o) ∧
        (s.files.uuid = none → uuid ≠ "" → r.isSome → t.failedRenamed = false →
          t.files.uuid = some uuid)) s := by
  refine ⟨trivial, fun _ _ => ?_⟩
  have hstored : Stored (s.next (.print uuid) ()) := h.next (.print uuid) () trivial
  exact safe_saveUUID c hstored (List.mem_append_right _ List.mem_cons_self)

/-- A start that can read the file loads its first line. -/
theorem safe_connect (c : Client) :
    Safe interface (connect c) (fun d t => t.unread = false → d = Client.connect s.files c)
      s := by
  refine ⟨trivial, fun (line : Option String) _ => ?_⟩
  have hconnect : line = s.files.uuid.map getline →
      { c with id := line.getD c.id, connectReactor := some .init }
        = Client.connect s.files c := by
    rintro rfl
    rw [Client.connect, Client.loadUUID]
    cases s.files.uuid <;> rfl
  have hread : (s.next .readLine line).unread = false → line = s.files.uuid.map getline :=
    fun hread => by simpa [State.next] using hread
  cases line with
  | none => exact fun h => hconnect (hread h)
  | some line => exact fun h => hconnect (hread h)

theorem safe_program (op : Op) (c : Client) (p : Program Reply Client) (s : State)
    (hp : program op c = some p) (h : Stored s) :
    Safe interface p (fun _ t => Stored t) s := by
  suffices hsafe : Safe interface p (fun _ _ => True) s from
    (hsafe.keeps (P := Stored) (fun _ c r hs hc _ => hs.next c r hc) h).imp fun _ _ ht => ht.2
  cases op with
  | connect =>
    cases hc : c.connectReactor with
    | some r => simp [program, hc] at hp
    | none =>
      simp only [program, hc, Option.some.injEq] at hp
      exact hp ▸ (safe_connect c).imp fun _ _ _ => trivial
  | receive uuid =>
    cases hc : c.connectReactor with
    | none => simp [program, hc] at hp
    | some r =>
      simp only [program, hc, Option.some.injEq] at hp
      exact hp ▸ safe_bind.mpr ((safe_onId c uuid h).imp fun _ _ _ => trivial)

end Saving

/-! ### Runs -/

/-- A run of processes, one after the other. -/
abbrev exec (c : Client) (s : State) (as : List (Op × List ((c : Call) → Reply c))) :
    Option (Client × State) :=
  Run.exec (Calls.live interface program {}) (c, s) as

theorem stored_exec {as : List (Op × List ((c : Call) → Reply c))} {c d : Client} {s t : State}
    (h : Stored s) (ht : exec c s as = some (d, t)) : Stored t :=
  Calls.live_invariant (fun op c p s hp hs => safe_program op c p s hp hs)
    (fun _ c r hs hc _ => Stored.next hs c r hc) (fun _ _ hs => hs) (fun _ hs => hs) h ht

theorem uuid_exec {as : List (Op × List ((c : Call) → Reply c))} {c d : Client} {s t : State}
    {content : String} (h : Stored s) (hcontent : s.files.uuid = some content)
    (ht : exec c s as = some (d, t)) : t.files.uuid = some content := by
  have hkept : ∀ (s : State) (c : Call) (r : Reply c),
      Stored s ∧ s.files.uuid = some content → s.allows c → interface.replies s c r = true →
        Stored (s.next c r) ∧ (s.next c r).files.uuid = some content :=
    fun s c r hs hc _ => ⟨hs.1.next c r hc, uuid_next hs.2 c r hc⟩
  have hsafe : ∀ op c p s, program op c = some p → Stored s ∧ s.files.uuid = some content →
      Calls.Safe interface p (fun _ s => Stored s ∧ s.files.uuid = some content) s :=
    fun op c p s hp hs =>
      ((safe_program op c p s hp hs.1).keeps hkept hs).imp fun _ _ ht => ht.2
  exact (Calls.live_invariant hsafe hkept (fun _ _ hs => hs) (fun _ hs => hs)
    ⟨h, hcontent⟩ ht).2

/-- **The ID is kept.**  Whatever calls fail and wherever processes are killed: what is
once in `agent.uuid` is a beginning of an ID that was received, and the ID itself unless
a failed write was renamed; it stays, and every later start that can read it loads its
first line.  A save does what `Client.saveUUID` says, and with no file there it stores
the whole ID, whatever an earlier one has left, unless it fails. -/
theorem id_kept {as bs : List (Op × List ((c : Call) → Reply c))} {c d : Client} {s t : State}
    (hs : exec {} {} as = some (c, s)) (ht : exec c s bs = some (d, t)) :
    (∀ content, s.files.uuid = some content →
        (∃ uuid ∈ s.received, uuid ≠ "" ∧ content.toList <+: uuid.toList) ∧
        (s.failedRenamed = false → content ∈ s.received ∧ content ≠ "") ∧
        t.files.uuid = some content ∧
        ∀ answers e u, Run.exec (Calls.step interface) (connect d, t) answers
            = some (Program.pure e, u) → u.unread = false → e.id = getline content) ∧
      ∀ uuid answers r u, Run.exec (Calls.step interface) (onId d uuid, t) answers
          = some (Program.pure r, u) →
        (∃ o, (u.files, r) = d.saveUUID t.files uuid o) ∧
        (t.files.uuid = none → uuid ≠ "" → r.isSome → u.failedRenamed = false →
          u.files.uuid = some uuid) := by
  have hstored : Stored s := stored_exec stored_init hs
  refine ⟨fun content hcontent => ?_, fun uuid answers r u hrun => ?_⟩
  · have hlater : t.files.uuid = some content := uuid_exec hstored hcontent ht
    obtain ⟨hpart, hwhole⟩ := hstored.uuid content hcontent
    refine ⟨hpart, hwhole, hlater, fun answers e u hrun hread => ?_⟩
    have he : e = Client.connect t.files d := (safe_connect d).exec hrun hread
    rw [he, Client.connect, Client.loadUUID, hlater]
  · exact (safe_onId d uuid (stored_exec hstored ht)).exec hrun

/-- Replies to a process that finds the files like this. -/
def answer (files : Files) : (c : Call) → Reply c
  | .print _ => ()
  | .fileExists => files.uuid.isSome
  | .openTmp => true
  | .write _ => true
  | .rename => true
  | .readLine => files.uuid.map getline

/-- The first save is killed after a character, the second is not. -/
def killedOnce : List (Op × List ((c : Call) → Reply c)) :=
  [(.connect, [answer {}]), (.receive "4e", List.replicate 4 (answer {})),
    (.connect, [answer {}]), (.receive "7a", List.replicate 6 (answer {}))]

/-- One more ID is refused, the process is killed, and the next one starts. -/
def restarted : List (Op × List ((c : Call) → Reply c)) :=
  [(.receive "01", List.replicate 2 (answer { uuid := some "7a" })), (.receive "02", []),
    (.connect, [answer { uuid := some "7a" }])]

theorem id_kept_killedOnce :
    ∃ c s d t, exec {} {} killedOnce = some (c, s) ∧ exec c s restarted = some (d, t) ∧
      s.files.uuid = some "7a" ∧ t.files.uuid = some "7a" := by
  have hrun : (exec {} {} killedOnce).bind (fun u => (exec u.1 u.2 restarted).map fun v =>
      u.2.files.uuid) = some (some "7a") := by decide +kernel
  obtain ⟨⟨c, s⟩, hs, hrun⟩ := Option.bind_eq_some_iff.mp hrun
  obtain ⟨⟨d, t⟩, ht, huuid⟩ := Option.map_eq_some_iff.mp hrun
  exact ⟨c, s, d, t, hs, ht, huuid, ((id_kept hs ht).1 "7a" huuid).2.2.1⟩

end AgentIdFile
end Volta
