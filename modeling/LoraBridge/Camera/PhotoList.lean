import LoraBridge.Core.TopEntries
import LoraBridge.Portal.FormText

/-!
# The media on the card

The portal lists the newest pictures and recordings of a directory that may hold more of
them than fit into its array.  A file is one of them by its name, and its number is what
`sscanf` reads behind the mark.
-/

namespace LoraBridge.PhotoList

open LoraBridge.FormText LoraBridge.TopEntries

/-- What `openNextFile` finds in the directory. -/
structure DirEntry where
  name : Text
  size : UInt32

structure PhotoInfo where
  idx : UInt32
  bytes : UInt32
  vid : UInt8
  deriving DecidableEq

/-- What `idx` is compared by. -/
def PhotoInfo.number (info : PhotoInfo) : ℕ := info.idx.toNat

/-- The name behind the last `/`. -/
def baseName (name : Text) : Text := (name.reverse.takeWhile (· ≠ '/')).reverse

/-- `%u`, with the 32-bit `unsigned long` of the target. -/
def scanUnsigned (text : Text) : Option UInt32 :=
  let (negative, rest) := splitSign (text.dropWhile isSpace)
  let digits := rest.takeWhile Char.isDigit
  let magnitude := digits.foldl (fun value c => value * 10 + (c.toNat - '0'.toNat)) 0
  if digits.isEmpty then none
  else if 2 ^ 32 ≤ magnitude then some 0xFFFFFFFF
  else if negative then some (0 - UInt32.ofNat magnitude)
  else some (UInt32.ofNat magnitude)

/-- `sscanf(base, "<mark>%u", &idx) == 1`. -/
def scanIndex (mark base : Text) : Option UInt32 :=
  if mark <+: base then scanUnsigned (base.drop mark.length) else none

/-- "IMG_". -/
def imageMark : Text := ['I', 'M', 'G', '_']

/-- "VID_". -/
def videoMark : Text := ['V', 'I', 'D', '_']

/-- A picture or a recording; other files are passed over. -/
def photoInfo (e : DirEntry) : Option PhotoInfo :=
  let base := baseName e.name
  match scanIndex imageMark base with
  | some idx => some ⟨idx, e.size, 0⟩
  | none => (scanIndex videoMark base).map fun idx => ⟨idx, e.size, 1⟩

/-- The card as the call finds it: whether it is mounted, whether the bus came free in
time, and what "/loracam" holds when it is a directory. -/
structure Card where
  sdOk : Bool
  busFree : Bool
  dir : Option (List DirEntry)

/-- One turn of the loop over the directory. -/
def takeEntry (cap : ℕ) (out : List PhotoInfo) (e : DirEntry) : List PhotoInfo :=
  match photoInfo e with
  | some info => collect PhotoInfo.number cap out info
  | none => out

def photoList (card : Card) (cap : ℕ) : List PhotoInfo :=
  if !card.sdOk ∨ cap = 0 ∨ !card.busFree then []
  else insertionSort PhotoInfo.number ((card.dir.getD []).foldl (takeEntry cap) [])

/-- A mounted card with these files. -/
def Card.mounted (entries : List DirEntry) : Card := ⟨true, true, some entries⟩

/-- The pictures and recordings among the files. -/
def media (entries : List DirEntry) : List PhotoInfo := entries.filterMap photoInfo

theorem foldl_takeEntry (cap : ℕ) (entries : List DirEntry) (out : List PhotoInfo) :
    entries.foldl (takeEntry cap) out =
      (media entries).foldl (collect PhotoInfo.number cap) out := by
  induction entries generalizing out with
  | nil => rfl
  | cons e entries ih =>
      rw [List.foldl_cons, ih, media, media, List.filterMap_cons, takeEntry]
      cases photoInfo e with
      | none => rfl
      | some info => rfl

theorem photoList_mounted (entries : List DirEntry) {cap : ℕ} (hcap : 0 < cap) :
    photoList (.mounted entries) cap =
      insertionSort PhotoInfo.number ((media entries).foldl (collect PhotoInfo.number cap) []) := by
  have hgoes : ¬(!(Card.mounted entries).sdOk ∨ cap = 0 ∨ !(Card.mounted entries).busFree) := by
    simp [Card.mounted, hcap.ne']
  rw [photoList, if_neg hgoes, ← foldl_takeEntry]
  rfl

/-- As many media as fit are listed, each file at most once and the highest number
first, and none that is left out has a higher number. -/
theorem photoList_newest (entries : List DirEntry) {cap : ℕ} (hcap : 0 < cap) :
    Descending PhotoInfo.number (photoList (.mounted entries) cap) ∧
      ∃ left, Keeps PhotoInfo.number cap (media entries) (photoList (.mounted entries) cap)
        left := by
  obtain ⟨left, hkeeps⟩ := keeps_foldl hcap (keeps_nil PhotoInfo.number cap) (media entries)
  rw [photoList_mounted entries hcap]
  exact ⟨(insertionSort_spec _).1, left, hkeeps.insertionSort⟩

/-- Three files with one number twice and a stray one, for an array of two. -/
theorem photoList_newest_three :
    let entries : List DirEntry :=
      [⟨"IMG_00003.jpg".toList, 10⟩, ⟨"notes.txt".toList, 20⟩, ⟨"VID_00003.avi".toList, 30⟩,
        ⟨"IMG_00007.jpg".toList, 40⟩]
    photoList (.mounted entries) 2 = [⟨7, 40, 0⟩, ⟨3, 30, 1⟩] ∧
      Descending PhotoInfo.number (photoList (.mounted entries) 2) ∧
      ∃ left, Keeps PhotoInfo.number 2 (media entries) (photoList (.mounted entries) 2) left :=
  ⟨by decide, photoList_newest _ Nat.two_pos⟩

end LoraBridge.PhotoList
