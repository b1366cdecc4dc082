/-
The export commands, from the command line (`main.cc`) to the agent
(`scheduler.cc`).

A C++ string is a list of `char`.  The queue between the two delivers a message
as it was sent (`MessageQueue`).

* `decodes_iff` — the agent does what was meant on exactly the commands that are
  `export stop` or give a path.
-/
import Volta.MessageQueue

namespace Volta

namespace ExportCommand

abbrev Text := List Char

/-- How the command-line program ends, with the message that it sends, if any. -/
inductive CliResult where
  | exits (code : ℕ)
  | sent (message : Text)
  | throws
  deriving DecidableEq

/-- `MessageQueue::send`, by its own test of the size. -/
def send (message : Text) : CliResult :=
  if message.length > ({} : MessageQueue.Options).maxMsgSize then .throws else .sent message

/-- `cli_mode`; `absolute` is `std::filesystem::absolute`. -/
def cliMode (absolute : Text → Text) (argv : List Text) : CliResult :=
  match argv with
  | _ :: command :: args =>
      if command = "export".toList then
        match args with
        | subcommand :: args =>
            if subcommand = "start".toList then
              let file := match args with
                | path :: _ => absolute path
                | [] => []
              send ("dump_start;".toList ++ file)
            else if subcommand = "stop".toList then send "dump_end".toList
            else .exits 1
        | [] => .exits 1
      else .exits 1
  | _ => .exits 1

/-- What the agent's handler calls on its exporter. -/
inductive Call where
  | startDump (path : Option Text)
  | endDump
  deriving DecidableEq

/-- `message.remove_prefix` up to the first `;`.  With none, `find` gives `npos`,
which is -1 as an `int`, and nothing is removed. -/
def removePath (message : Text) : Text :=
  match message.idxOf? ';' with
  | some pathStart => message.drop (pathStart + 1)
  | none => message

/-- The second `if` of the handler. -/
def endDump (message : Text) : List Call :=
  if "dump_end".toList.isPrefixOf message then [.endDump] else []

/-- The handler that `Scheduler::Run` gives to the queue; `none` when it
dereferences an empty optional. -/
def handleMessage (message : Text) : Option (List Call) :=
  if "dump_start".toList.isPrefixOf message then
    if message.length > 11 then
      -- the second `if` looks at what is left of the message
      let message := removePath message
      some (.startDump (some message) :: endDump message)
    else none  -- the path is printed before it is tested
  else some (endDump message)

/-- What `export subcommand args` means. -/
def meant (absolute : Text → Text) (subcommand : Text) (args : List Text) : Call :=
  if subcommand = "start".toList then .startDump (args.head?.map absolute) else .endDump

/-- The agent does what was meant, once and nothing else. -/
def Decodes (absolute : Text → Text) (subcommand : Text) (args : List Text) (message : Text) :
    Prop :=
  handleMessage message = some [meant absolute subcommand args]

/-! ### The three messages -/

theorem removePath_dumpStart (file : Text) : removePath ("dump_start;".toList ++ file) = file := by
  have hfind : ("dump_start;".toList ++ file).idxOf? ';' = some 10 := rfl
  rw [removePath, hfind]
  rfl

/-- An absolute path is found whole, whatever is in it, and is taken for no
other command. -/
theorem handleMessage_path {file : Text} (hroot : ∃ rest, file = '/' :: rest) :
    handleMessage ("dump_start;".toList ++ file) = some [.startDump (some file)] := by
  obtain ⟨rest, rfl⟩ := hroot
  have hprefix : "dump_start".toList.isPrefixOf ("dump_start;".toList ++ '/' :: rest) = true := rfl
  have hlen : ("dump_start;".toList ++ '/' :: rest).length > 11 := by
    rw [List.length_append, List.length_cons, show "dump_start;".toList.length = 11 from rfl]
    omega
  have hend : endDump ('/' :: rest) = [] := rfl
  rw [handleMessage, if_pos hprefix, if_pos hlen, removePath_dumpStart]
  dsimp only
  rw [hend]

/-- Without a path the message is as long as its prefix. -/
theorem handleMessage_noPath : handleMessage ("dump_start;".toList ++ []) = none := rfl

theorem handleMessage_stop : handleMessage "dump_end".toList = some [.endDump] := rfl

/-- A message that fits the queue is sent as it is. -/
theorem send_eq_sent {message sent : Text} (h : send message = .sent sent) : sent = message := by
  rw [send] at h
  split at h
  · exact absurd h (by simp)
  · exact (CliResult.sent.inj h).symm

/-- **A command is decoded exactly if it is to stop or has a path.**  For every
`export` command of which the program sends a message, whatever its path, the
agent calls what was meant, once and nothing else, and dereferences no empty
optional, if and only if the command is not `export start` without a path. -/
theorem decodes_iff {absolute : Text → Text} (habs : ∀ path, ∃ rest, absolute path = '/' :: rest)
    {program subcommand : Text} {args : List Text} {message : Text}
    (hsent : cliMode absolute (program :: "export".toList :: subcommand :: args)
      = .sent message) :
    Decodes absolute subcommand args message
      ↔ (subcommand = "start".toList → args ≠ []) := by
  unfold cliMode at hsent
  dsimp only at hsent
  rw [if_pos rfl] at hsent
  rw [Decodes, meant]
  split at hsent
  · rename_i hstart
    rw [if_pos hstart]
    cases args with
    | nil =>
      rw [send_eq_sent hsent, handleMessage_noPath]
      constructor
      · intro h
        exact absurd h (by simp)
      · intro h
        exact absurd rfl (h hstart)
    | cons path args =>
      rw [send_eq_sent hsent, handleMessage_path (habs path)]
      exact ⟨fun _ _ => List.cons_ne_nil path args, fun _ => rfl⟩
  · rename_i hstart
    rw [if_neg hstart]
    split at hsent
    · rw [send_eq_sent hsent]
      exact ⟨fun _ h => absurd h hstart, fun _ => handleMessage_stop⟩
    · exact absurd hsent (by simp)

/-- `export start "a;b"`, in the root directory. -/
theorem decodes_iff_semicolon :
    Decodes (fun path => '/' :: path) "start".toList ["a;b".toList] "dump_start;/a;b".toList
      ↔ ("start".toList = "start".toList → ["a;b".toList] ≠ []) := by
  have hsent : cliMode (fun path => '/' :: path)
      ["volta".toList, "export".toList, "start".toList, "a;b".toList]
        = .sent "dump_start;/a;b".toList := rfl
  exact decodes_iff (fun path => ⟨path, rfl⟩) hsent

/-- `export start` dereferences an empty optional. -/
theorem export_start_without_path :
    ¬ ∀ (absolute : Text → Text), (∀ path, ∃ rest, absolute path = '/' :: rest) →
      ∀ (program subcommand : Text) (args : List Text) (message : Text),
        cliMode absolute (program :: "export".toList :: subcommand :: args) = .sent message →
          Decodes absolute subcommand args message := by
  intro hall
  have hdecodes := hall (fun path => '/' :: path) (fun path => ⟨path, rfl⟩) "volta".toList
    "start".toList [] "dump_start;".toList rfl
  rw [Decodes, show handleMessage "dump_start;".toList = none from rfl] at hdecodes
  exact absurd hdecodes (by simp)

end ExportCommand
end Volta
