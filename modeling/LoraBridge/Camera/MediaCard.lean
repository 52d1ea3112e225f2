import LoraBridge.Camera.CameraNode
import LoraBridge.Camera.PhotoList
import LoraBridge.Core.Machine
import LoraBridge.Portal.FormPrint

/-!
# The camera's card

Pictures and recordings get numbers that are resumed, at every boot, from the names on the
card.  What the camera, the card and the clock do is part of each event, and power may fail
between any two; a file that was open then may be left in any state.
-/

namespace LoraBridge.MediaCard

open LoraBridge.CameraNode LoraBridge.FormPrint LoraBridge.FormText LoraBridge.PhotoList

/-! ## The card -/

structure Entry where
  name : Text
  bytes : List UInt8
  deriving DecidableEq

abbrev Files := List Entry

def Files.read (files : Files) (path : Text) : Option (List UInt8) :=
  (files.find? fun entry => entry.name = path).map Entry.bytes

/-- `SD.open(path, FILE_WRITE)` and what is written: the file is made anew. -/
def Files.store (files : Files) (path : Text) (bytes : List UInt8) : Files :=
  files.filter (fun entry => entry.name ≠ path) ++ [⟨path, bytes⟩]

def Files.remove (files : Files) (path : Text) : Files :=
  files.filter fun entry => entry.name ≠ path

/-! ## Names -/

/-- "/loracam/". -/
def folder : Text := ['/', 'l', 'o', 'r', 'a', 'c', 'a', 'm', '/']

/-- `%05u`. -/
def decimal5 (idx : UInt32) : Text :=
  List.replicate (5 - (decimal idx.toNat).length) '0' ++ decimal idx.toNat

def mediaPath (idx : UInt32) (vid : Bool) : Text :=
  if vid then folder ++ (videoMark ++ (decimal5 idx ++ ['.', 'a', 'v', 'i']))
  else folder ++ (imageMark ++ (decimal5 idx ++ ['.', 'j', 'p', 'g']))

/-- The descriptor of a picture that was not saved. -/
def unsavedName (fb : Frame) : Text :=
  "snap_".toList ++ decimal fb.width.toNat ++ ['x'] ++ decimal fb.height.toNat ++ ['_'] ++
    decimal fb.buf.length ++ "B.jpg".toList

/-- What `openNextFile` comes to in "/loracam": the files of that folder, not those below it. -/
def Entry.listed (entry : Entry) : Bool :=
  folder <+: entry.name ∧ '/' ∉ entry.name.drop folder.length

/-- The number of a picture or a recording, by its name. -/
def image (entry : Entry) : Option UInt32 := scanIndex imageMark (baseName entry.name)

def video (entry : Entry) : Option UInt32 := scanIndex videoMark (baseName entry.name)

/-! ## The camera node -/

/-- The card's bytes, and those in use. -/
structure Usage where
  total : ℕ
  used : ℕ

/-- `refreshFreePct`. -/
def freePct (usage : Usage) : UInt8 :=
  if usage.total ≠ 0 then .ofNat ((usage.total - usage.used) * 100 / usage.total) else 0

/-- A recording: `s_recIdx`, `s_recSecs`, `s_recStop`, and what `recTask` holds with the time
it began, once its file is open. -/
structure Recording where
  idx : UInt32
  secs : UInt16
  stop : Bool
  open? : Option (Rec × UInt32)

/-- The statics of the module; a recording is there while `s_recActive`. -/
structure Node where
  ok : Bool
  sdOk : Bool
  nextIdx : UInt32
  nextVid : UInt32
  sdFreePct : UInt8
  recording : Option Recording

def Node.boot (camera : Bool) : Node := ⟨camera, false, 1, 1, 0xFF, none⟩

structure State where
  node : Node
  files : Files

/-- What the module reports: a picture or recording that is on the card, a picture that is
not, a recording that began, and a file that was deleted. -/
inductive Output where
  | saved (path : Text) (bytes : List UInt8)
  | unsaved (name : Text) (len : ℕ)
  | started (path : Text)
  | recorded (path : Text) (bytes : List UInt8)
  | deleted (path : Text)
  deriving DecidableEq

/-- One name of the directory, in `beginStorage`. -/
def resume (next : UInt32 × UInt32) (entry : Entry) : UInt32 × UInt32 :=
  let otherwise := match video entry with
    | some idx => if next.2 ≤ idx then (next.1, idx + 1) else next
    | none => next
  match image entry with
  | some idx => if next.1 ≤ idx then (idx + 1, next.2) else otherwise
  | none => otherwise

/-- `beginStorage`. -/
def beginStorage (busFree mounts dirOpens : Bool) (usage : Usage) (s : State) : State :=
  if busFree ∧ mounts then
    let next := if dirOpens then
        (s.files.filter Entry.listed).foldl resume (s.node.nextIdx, s.node.nextVid)
      else (s.node.nextIdx, s.node.nextVid)
    { s with node := { s.node with
        sdOk := true, nextIdx := next.1, nextVid := next.2, sdFreePct := freePct usage } }
  else s

/-- `snap`: whether the camera came free, the frame, whether the bus came free and the file
could be opened, and how many bytes were written. -/
def snap (camFree : Bool) (fb : Option Frame) (busFree opens : Bool) (written : ℕ)
    (usage : Usage) (s : State) : State × List Output :=
  if !s.node.ok ∨ !camFree then (s, [])
  else
    match fb with
    | none => (s, [])
    | some fb =>
        let path := mediaPath s.node.nextIdx false
        if s.node.sdOk ∧ busFree ∧ opens then
          if written = fb.buf.length then
            ({ node := { s.node with
                nextIdx := s.node.nextIdx + 1, sdFreePct := freePct usage }
               files := s.files.store path fb.buf }, [.saved path fb.buf])
          else
            -- a stub is not left behind
            ({ s with files := s.files.remove path }, [.unsaved (unsavedName fb) fb.buf.length])
        else (s, [.unsaved (unsavedName fb) fb.buf.length])

/-- `recordStart`; `spawns` says whether the task could be created. -/
def recordStart (seconds : UInt16) (spawns : Bool) (s : State) : State × List Output :=
  if !s.node.ok ∨ !s.node.sdOk ∨ s.node.recording.isSome then (s, [])
  else
    let secs := if seconds < 5 then 5 else if 300 < seconds then 300 else seconds
    let node := { s.node with nextVid := s.node.nextVid + 1 }
    if spawns then
      ({ s with node := { node with recording := some ⟨s.node.nextVid, secs, false, none⟩ } },
        [.started (mediaPath s.node.nextVid true)])
    else ({ s with node := node }, [])

def recordStop (s : State) : State :=
  { s with node := { s.node with
      recording := s.node.recording.map fun r => { r with stop := true } } }

/-- The beginning of `recTask`. -/
def recOpen (opens : Bool) (now : UInt32) (s : State) : State :=
  match s.node.recording with
  | none => s
  | some r =>
      if r.open?.isSome then s
      else if opens then
        { node := { s.node with recording := some { r with open? := some (.start, now) } }
          files := s.files.store (mediaPath r.idx true) [] }
      else { s with node := { s.node with recording := none } }

/-- A turn of the loop of `recTask`, with a frame if the camera, the frame and the bus were
there, or what comes behind the loop, if the bus comes free. -/
def recTurn (now : UInt32) (fb : Option Frame) (busFree : Bool) (usage : Usage) (s : State) :
    State × List Output :=
  match s.node.recording with
  | none => (s, [])
  | some r =>
      match r.open? with
      | none => (s, [])
      | some (task, t0) =>
          let path := mediaPath r.idx true
          if !r.stop ∧ now < t0 + r.secs.toUInt32 * 1000 ∧ task.frames < REC_MAX_FRAMES then
            match fb with
            | none => (s, [])
            | some fb =>
                let task := recFrame task fb
                ({ node := { s.node with recording := some { r with open? := some (task, t0) } }
                   files := s.files.store path task.file.bytes }, [])
          else
            let node := { s.node with recording := none }
            if busFree then
              match finalize task (now - t0) with
              | none => ({ node := node, files := s.files.remove path }, [])
              | some bytes =>
                  ({ node := { node with sdFreePct := freePct usage }
                     files := s.files.store path bytes }, [.recorded path bytes])
            else ({ s with node := node }, [])

/-- `photoDelete`; `removes` says whether the card removes the file. -/
def photoDelete (idx : UInt32) (vid busFree removes : Bool) (usage : Usage) (s : State) :
    State × List Output :=
  let path := mediaPath idx vid
  if s.node.sdOk ∧ busFree ∧ removes ∧ (s.files.read path).isSome then
    ({ node := { s.node with sdFreePct := freePct usage }, files := s.files.remove path },
      [.deleted path])
  else (s, [])

/-- What is left of the files that were open when power failed: a picture that was being
written, and the recording. -/
def tear (left : Option (List UInt8)) (recording : Option (List UInt8)) (s : State) : Files :=
  let files := match left with
    | some bytes => if s.node.sdOk then s.files.store (mediaPath s.node.nextIdx false) bytes
        else s.files
    | none => s.files
  match s.node.recording with
  | none => files
  | some r =>
      if r.open?.isSome then
        match recording with
        | some bytes => files.store (mediaPath r.idx true) bytes
        | none => files.remove (mediaPath r.idx true)
      else files

inductive Event where
  | powerFails (left recording : Option (List UInt8)) (camera : Bool)
  | beginStorage (busFree mounts dirOpens : Bool) (usage : Usage)
  | snap (camFree : Bool) (fb : Option Frame) (busFree opens : Bool) (written : ℕ)
      (usage : Usage)
  | recordStart (seconds : UInt16) (spawns : Bool)
  | recordStop
  | recOpen (opens : Bool) (now : UInt32)
  | recTurn (now : UInt32) (fb : Option Frame) (busFree : Bool) (usage : Usage)
  | photoDelete (idx : UInt32) (vid busFree removes : Bool) (usage : Usage)

def step (s : State) : Event → State × List Output
  | .powerFails left recording camera => (⟨.boot camera, tear left recording s⟩, [])
  | .beginStorage busFree mounts dirOpens usage =>
      (MediaCard.beginStorage busFree mounts dirOpens usage s, [])
  | .snap camFree fb busFree opens written usage =>
      MediaCard.snap camFree fb busFree opens written usage s
  | .recordStart seconds spawns => MediaCard.recordStart seconds spawns s
  | .recordStop => (MediaCard.recordStop s, [])
  | .recOpen opens now => (MediaCard.recOpen opens now s, [])
  | .recTurn now fb busFree usage => MediaCard.recTurn now fb busFree usage s
  | .photoDelete idx vid busFree removes usage =>
      MediaCard.photoDelete idx vid busFree removes usage s

/-- From a card with any files on it. -/
def life (files : Files) (camera : Bool) (events : List Event) : State × List Output :=
  Machine.run step ⟨.boot camera, files⟩ events

end LoraBridge.MediaCard
