import TransitionAudit.Trace.Recording

/-!
# Folders of recordings

What a collector leaves behind: a folder with a recording of the windows, one of the layers and one
of the transitions. Writing a folder and reading it again gives the same recordings.
-/

namespace TransitionAudit

/-- The three recordings of a folder. -/
structure Recordings where
  windows : WindowTrace
  layers : LayerTrace
  log : TransitionLog

namespace Recordings

def windowsFile : Text := "wm_trace.jsonl"

def layersFile : Text := "layers_trace.jsonl"

def transitionsFile : Text := "transition_trace.jsonl"

def fileNames : List Text := [windowsFile, layersFile, transitionsFile]

/-- The files that a folder lacks. -/
def missingFrom (t : Tree) (folder : Path) : List Text → Except FileFault (List Text)
  | [] => .ok []
  | name :: rest => do
    let found ← t.isFile (folder.child name)
    let others ← missingFrom t folder rest
    return if found then others else name :: others

/-- Reads the recordings of a folder that holds all of them. -/
def ofFolder (room : Room) (t : Tree) (folder : Path) : Except RecordingFault Recordings := do
  let missing ← (missingFrom t folder fileNames).mapError .file
  if !missing.isEmpty then throw (.missingFiles folder.text missing)
  let windows ← Recording.windows room t (folder.child windowsFile)
  let layers ← Recording.layers room t (folder.child layersFile)
  let log ← Recording.transitions room t (folder.child transitionsFile)
  return ⟨windows, layers, log⟩

/-- The files of a folder with their texts. -/
def files (r : Recordings) : List (Text × Text) :=
  [(windowsFile, Recording.text WindowState.toJson r.windows.entries),
   (layersFile, Recording.text LayerState.toJson r.layers.entries),
   (transitionsFile, Recording.text Transition.toJson r.log.entries)]

/-- Writes the recordings into a folder, which is made if it is missing. -/
def writeFolder (r : Recordings) (t : Tree) (folder : Path) : Except FileFault Tree :=
  r.files.foldlM (fun t (name, text) => do
    match (← t.makeDirectories folder).writeText (folder.child name) text with
    | (t, none) => return t
    | (_, some fault) => throw fault) t

end Recordings

end TransitionAudit
