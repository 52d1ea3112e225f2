import LoraBridge.Camera.MediaCard

/-!
# Captures are kept

No picture or recording that was reported is written over by a later one: while the card is
mounted the next numbers are above every number in its folder.
-/

namespace LoraBridge.Captures

open LoraBridge.CameraNode LoraBridge.FormPrint LoraBridge.FormText LoraBridge.MediaCard
open LoraBridge.PhotoList

/-! ## The card -/

section Files

variable {files : Files} {path other : Text} {bytes : List UInt8}

@[simp]
theorem read_store_self : (files.store path bytes).read path = some bytes := by
  have hnone : (files.filter fun entry => entry.name ≠ path).find?
      (fun entry => entry.name = path) = none := by
    refine List.find?_eq_none.mpr fun entry hmem => ?_
    simpa using List.of_mem_filter hmem
  rw [Files.read, Files.store, List.find?_append, hnone]
  simp

theorem read_store_of_ne (hne : other ≠ path) :
    (files.store path bytes).read other = files.read other := by
  have hfilter : (files.filter fun entry => entry.name ≠ path).find?
      (fun entry => entry.name = other) = files.find? fun entry => entry.name = other := by
    rw [List.find?_filter]
    congr 1
    funext entry
    by_cases hname : entry.name = other
    · simp [hname, hne]
    · simp [hname]
  rw [Files.read, Files.store, List.find?_append, hfilter, Files.read]
  simp [Ne.symm hne]

theorem read_remove_of_ne (hne : other ≠ path) :
    (files.remove path).read other = files.read other := by
  rw [Files.read, Files.remove, List.find?_filter, Files.read]
  congr 2
  funext entry
  by_cases hname : entry.name = other
  · simp [hname, hne]
  · simp [hname]

theorem mem_of_read (hread : files.read path = some bytes) : ⟨path, bytes⟩ ∈ files := by
  obtain ⟨entry, hfind, rfl⟩ := Option.map_eq_some_iff.mp hread
  have hname : entry.name = path := by simpa using List.find?_some hfind
  subst hname
  exact List.mem_of_find?_eq_some hfind

theorem mem_store {entry : Entry} (hmem : entry ∈ files.store path bytes) :
    entry ∈ files ∨ entry = ⟨path, bytes⟩ := by
  rcases List.mem_append.mp hmem with hold | hnew
  · exact .inl (List.mem_of_mem_filter hold)
  · exact .inr (List.mem_singleton.mp hnew)

end Files

/-! ## Numbers in names -/

theorem foldl_digits (zeros n : ℕ) :
    (List.replicate zeros '0' ++ decimal n).foldl
      (fun value c => value * 10 + (c.toNat - '0'.toNat)) 0 = n := by
  have hread := @Nat.ofDigitChars_toDigits 10 n (by decide) (by decide)
  rw [Nat.ofDigitChars_eq_foldl] at hread
  rw [List.foldl_append]
  have hzero : (List.replicate zeros '0').foldl
      (fun value c => value * 10 + (c.toNat - '0'.toNat)) 0 = 0 := by
    induction zeros with
    | zero => rfl
    | succ zeros ih => simpa [List.replicate_succ] using ih
  rw [hzero]
  unfold decimal
  simpa only [Nat.mul_comm] using hread

theorem isDigit_decimal5 (idx : UInt32) : ∀ c ∈ decimal5 idx, c.isDigit = true := by
  intro c hmem
  rcases List.mem_append.mp hmem with hzero | hdigit
  · rw [List.eq_of_mem_replicate hzero]
    decide
  · exact Nat.isDigit_of_mem_toDigits (by decide) (by decide) hdigit

theorem decimal5_ne_nil (idx : UInt32) : decimal5 idx ≠ [] := by
  have hpos : 0 < (decimal idx.toNat).length := Nat.length_toDigits_pos
  intro hnil
  have hlength := congrArg List.length hnil
  rw [decimal5, List.length_append, List.length_nil] at hlength
  omega

/-- The digits are read up to the dot. -/
theorem scanUnsigned_decimal5 (idx : UInt32) (rest : Text) :
    scanUnsigned (decimal5 idx ++ '.' :: rest) = some idx := by
  obtain ⟨c, digits, hdigits⟩ := List.exists_cons_of_ne_nil (decimal5_ne_nil idx)
  have hall := isDigit_decimal5 idx
  have hfirst : c.isDigit = true := hall c (hdigits ▸ List.mem_cons_self)
  have htake : (decimal5 idx ++ '.' :: rest).takeWhile Char.isDigit = decimal5 idx := by
    rw [List.takeWhile_append_of_pos hall]
    simp
  have hspace : (decimal5 idx ++ '.' :: rest).dropWhile isSpace = decimal5 idx ++ '.' :: rest := by
    rw [hdigits, List.cons_append, List.dropWhile_cons_of_neg]
    simp [(isDigit_of_isDigit hfirst).notSpace]
  have hsign : splitSign (decimal5 idx ++ '.' :: rest) = (false, decimal5 idx ++ '.' :: rest) := by
    rw [hdigits, List.cons_append]
    unfold splitSign
    split
    · rename_i heq
      cases heq
      cases hfirst
    · rename_i heq
      cases heq
      cases hfirst
    · rfl
  have hvalue : (decimal5 idx).foldl (fun value c => value * 10 + (c.toNat - '0'.toNat)) 0 =
      idx.toNat := foldl_digits _ _
  have hsmall : ¬ 2 ^ 32 ≤ idx.toNat := Nat.not_le.mpr idx.toNat_lt
  simp only [scanUnsigned, hspace, hsign, htake, hvalue, if_neg hsmall]
  simp [decimal5_ne_nil]

/-- The name behind the folder. -/
theorem baseName_folder {name : Text} (hname : '/' ∉ name) : baseName (folder ++ name) = name := by
  have hall : ∀ c ∈ name.reverse, decide (c ≠ '/') = true := by
    intro c hmem
    refine decide_eq_true fun heq => hname ?_
    exact heq ▸ List.mem_reverse.mp hmem
  rw [baseName, List.reverse_append, List.takeWhile_append_of_pos hall]
  simp [folder]

theorem notMem_decimal5 (idx : UInt32) : '/' ∉ decimal5 idx := fun hmem => by
  have hdigit := isDigit_decimal5 idx '/' hmem
  revert hdigit
  decide

/-- Every name that is made is one of the folder. -/
theorem listed_mediaPath (idx : UInt32) (vid : Bool) (bytes : List UInt8) :
    (Entry.mk (mediaPath idx vid) bytes).listed = true := by
  have hbase := notMem_decimal5 idx
  cases vid <;> simp [Entry.listed, mediaPath, imageMark, videoMark, hbase]

theorem scanIndex_mark (mark : Text) (idx : UInt32) (rest : Text) :
    scanIndex mark (mark ++ (decimal5 idx ++ '.' :: rest)) = some idx := by
  rw [scanIndex, if_pos (List.prefix_append _ _), List.drop_left, scanUnsigned_decimal5]

/-- A name's number is the one it was made from. -/
theorem image_mediaPath (idx : UInt32) (bytes : List UInt8) :
    image ⟨mediaPath idx false, bytes⟩ = some idx := by
  have hbase := notMem_decimal5 idx
  rw [image, mediaPath, if_neg Bool.false_ne_true, baseName_folder (by simp [imageMark, hbase])]
  exact scanIndex_mark imageMark idx _

theorem video_mediaPath (idx : UInt32) (bytes : List UInt8) :
    video ⟨mediaPath idx true, bytes⟩ = some idx := by
  have hbase := notMem_decimal5 idx
  rw [video, mediaPath, if_pos rfl, baseName_folder (by simp [videoMark, hbase])]
  exact scanIndex_mark videoMark idx _

theorem video_of_image {entry : Entry} {idx : UInt32} (himage : image entry = some idx) :
    video entry = none := by
  unfold image scanIndex at himage
  split at himage
  · rename_i hmark
    obtain ⟨rest, hrest⟩ := hmark
    rw [video, scanIndex, ← hrest]
    simp [imageMark, videoMark]
  · cases himage

theorem image_of_video {entry : Entry} {idx : UInt32} (hvideo : video entry = some idx) :
    image entry = none := by
  cases himage : image entry with
  | none => rfl
  | some other =>
      rw [video_of_image himage] at hvideo
      cases hvideo

theorem mediaPath_ne (idx other : UInt32) : mediaPath idx false ≠ mediaPath other true := by
  intro heq
  have himage := image_mediaPath idx []
  rw [heq, image_of_video (video_mediaPath other [])] at himage
  cases himage

/-! ## What was reported -/

/-- What a path holds, by the reports. -/
def kept (log : List Output) (path : Text) : Option (List UInt8) :=
  log.foldl (fun held output =>
    match output with
    | .saved other bytes | .recorded other bytes => if other = path then some bytes else held
    | .deleted other => if other = path then none else held
    | _ => held) none

section Kept

variable {log : List Output} {path other : Text} {bytes : List UInt8}

theorem kept_saved : kept (log ++ [.saved other bytes]) path =
    if other = path then some bytes else kept log path := by
  simp [kept, List.foldl_append]

theorem kept_recorded : kept (log ++ [.recorded other bytes]) path =
    if other = path then some bytes else kept log path := by
  simp [kept, List.foldl_append]

theorem kept_deleted : kept (log ++ [.deleted other]) path =
    if other = path then none else kept log path := by
  simp [kept, List.foldl_append]

theorem kept_unsaved {len : ℕ} : kept (log ++ [.unsaved other len]) path = kept log path := by
  simp [kept, List.foldl_append]

theorem kept_started : kept (log ++ [.started other]) path = kept log path := by
  simp [kept, List.foldl_append]

end Kept

/-- A picture or a recording that is on the card. -/
def reported : Output → Option (Text × List UInt8)
  | .saved path bytes | .recorded path bytes => some (path, bytes)
  | _ => none

/-- Every report is of a path that holds nothing by the reports before. -/
def Fresh (log : List Output) : Prop :=
  ∀ before output after, log = before ++ output :: after →
    ∀ path bytes, reported output = some (path, bytes) → kept before path = none

theorem fresh_snoc {log : List Output} {output : Output} (hfresh : Fresh log)
    (hnew : ∀ path bytes, reported output = some (path, bytes) → kept log path = none) :
    Fresh (log ++ [output]) := by
  intro before other after hsplit path bytes hreported
  rcases List.eq_nil_or_concat after with rfl | ⟨earlier, last, rfl⟩
  · obtain ⟨rfl, hlast⟩ := List.append_inj' hsplit rfl
    obtain rfl := List.singleton_inj.mp hlast
    exact hnew path bytes hreported
  · rw [List.concat_eq_append, ← List.cons_append, ← List.append_assoc] at hsplit
    exact hfresh before other earlier (List.append_inj' hsplit rfl).1 path bytes hreported

/-! ## The numbers on the card -/

/-- No number in the folder is above a bound. -/
def Numbered (files : Files) (bound : ℕ) : Prop :=
  ∀ entry ∈ files, entry.listed →
    ∀ idx, image entry = some idx ∨ video entry = some idx → idx.toNat ≤ bound

/-- The next numbers are above all in the folder. -/
def Above (files : Files) (nextIdx nextVid : UInt32) : Prop :=
  ∀ entry ∈ files, entry.listed → (∀ idx, image entry = some idx → idx < nextIdx) ∧
    ∀ idx, video entry = some idx → idx < nextVid

section Numbers

variable {files : Files} {bound : ℕ} {nextIdx nextVid : UInt32}

theorem lt_next {idx : UInt32} (hidx : idx.toNat ≤ bound) (hbound : bound + 1 < 2 ^ 32) :
    idx < idx + 1 ∧ (idx + 1).toNat = idx.toNat + 1 := by
  have hsucc : (idx + 1).toNat = idx.toNat + 1 := by
    have hone : (1 : UInt32).toNat = 1 := rfl
    rw [UInt32.toNat_add, hone]
    omega
  refine ⟨UInt32.lt_iff_toNat_lt.mpr ?_, hsucc⟩
  omega

/-- One name of the directory. -/
theorem resume_spec {next : UInt32 × UInt32} {entry : Entry} (hbound : bound + 1 < 2 ^ 32)
    (hnumber : ∀ idx, image entry = some idx ∨ video entry = some idx → idx.toNat ≤ bound)
    (himage : next.1.toNat ≤ bound + 1) (hvideo : next.2.toNat ≤ bound + 1) :
    (resume next entry).1.toNat ≤ bound + 1 ∧ (resume next entry).2.toNat ≤ bound + 1 ∧
      next.1 ≤ (resume next entry).1 ∧ next.2 ≤ (resume next entry).2 ∧
      (∀ idx, image entry = some idx → idx < (resume next entry).1) ∧
      ∀ idx, video entry = some idx → idx < (resume next entry).2 := by
  have hrefl1 := UInt32.le_refl next.1
  have hrefl2 := UInt32.le_refl next.2
  unfold resume
  cases hi : image entry with
  | some idx =>
      have hv := video_of_image hi
      obtain ⟨hlt, hsucc⟩ := lt_next (hnumber idx (.inl hi)) hbound
      have hsmall := hnumber idx (.inl hi)
      simp only [hv]
      split
      · rename_i hle
        refine ⟨hsucc.trans_le (by omega), hvideo, ?_, hrefl2, by simpa using hlt, by simp⟩
        exact UInt32.le_of_lt (UInt32.lt_of_le_of_lt hle hlt)
      · rename_i hnot
        exact ⟨himage, hvideo, hrefl1, hrefl2, by simpa using UInt32.not_le.mp hnot, by simp⟩
  | none =>
      cases hv : video entry with
      | none => exact ⟨himage, hvideo, hrefl1, hrefl2, by simp, by simp⟩
      | some idx =>
          obtain ⟨hlt, hsucc⟩ := lt_next (hnumber idx (.inr hv)) hbound
          have hsmall := hnumber idx (.inr hv)
          simp only
          split
          · rename_i hle
            refine ⟨himage, hsucc.trans_le (by omega), hrefl1, ?_, by simp, by simpa using hlt⟩
            exact UInt32.le_of_lt (UInt32.lt_of_le_of_lt hle hlt)
          · rename_i hnot
            exact ⟨himage, hvideo, hrefl1, hrefl2, by simp, by simpa using UInt32.not_le.mp hnot⟩

/-- The whole directory. -/
theorem foldl_resume (hbound : bound + 1 < 2 ^ 32) (hnumbered : Numbered files bound)
    (next : UInt32 × UInt32) (himage : next.1.toNat ≤ bound + 1)
    (hvideo : next.2.toNat ≤ bound + 1) :
    ((files.filter Entry.listed).foldl resume next).1.toNat ≤ bound + 1 ∧
      ((files.filter Entry.listed).foldl resume next).2.toNat ≤ bound + 1 ∧
      next.1 ≤ ((files.filter Entry.listed).foldl resume next).1 ∧
      next.2 ≤ ((files.filter Entry.listed).foldl resume next).2 ∧
      Above files ((files.filter Entry.listed).foldl resume next).1
        ((files.filter Entry.listed).foldl resume next).2 := by
  induction files generalizing next with
  | nil =>
      exact ⟨himage, hvideo, UInt32.le_refl _, UInt32.le_refl _, fun entry hmem => by cases hmem⟩
  | cons entry rest ih =>
      have hrest : Numbered rest bound := fun other hmem =>
        hnumbered other (List.mem_cons_of_mem _ hmem)
      by_cases hlisted : entry.listed = true
      · obtain ⟨hfirst1, hfirst2, hle1, hle2, hi, hv⟩ := resume_spec hbound
          (hnumbered entry List.mem_cons_self hlisted) himage hvideo
        obtain ⟨hrest1, hrest2, hmore1, hmore2, habove⟩ := ih hrest _ hfirst1 hfirst2
        rw [List.filter_cons_of_pos hlisted, List.foldl_cons]
        refine ⟨hrest1, hrest2, UInt32.le_trans hle1 hmore1, UInt32.le_trans hle2 hmore2,
          fun other hmem hother => ?_⟩
        rcases List.mem_cons.mp hmem with rfl | hlater
        · exact ⟨fun idx himg => UInt32.lt_of_lt_of_le (hi idx himg) hmore1,
            fun idx hvid => UInt32.lt_of_lt_of_le (hv idx hvid) hmore2⟩
        · exact habove other hlater hother
      · -- a file elsewhere does not count
        obtain ⟨hrest1, hrest2, hmore1, hmore2, habove⟩ := ih hrest _ himage hvideo
        rw [List.filter_cons_of_neg hlisted]
        refine ⟨hrest1, hrest2, hmore1, hmore2, fun other hmem hother => ?_⟩
        rcases List.mem_cons.mp hmem with rfl | hlater
        · exact absurd hother hlisted
        · exact habove other hlater hother

theorem Numbered.mono {more : ℕ} (hnumbered : Numbered files bound) (hle : bound ≤ more) :
    Numbered files more :=
  fun entry hmem hlisted idx hidx => (hnumbered entry hmem hlisted idx hidx).trans hle

theorem Numbered.remove (hnumbered : Numbered files bound) (path : Text) :
    Numbered (files.remove path) bound :=
  fun entry hmem => hnumbered entry (List.mem_of_mem_filter hmem)

theorem Above.remove (habove : Above files nextIdx nextVid) (path : Text) :
    Above (files.remove path) nextIdx nextVid :=
  fun entry hmem => habove entry (List.mem_of_mem_filter hmem)

/-- The number of a name that is made. -/
theorem number_mediaPath {idx other : UInt32} {vid : Bool} {bytes : List UInt8}
    (hnumber : image ⟨mediaPath idx vid, bytes⟩ = some other ∨
      video ⟨mediaPath idx vid, bytes⟩ = some other) : other = idx := by
  cases vid with
  | false =>
      rw [video_of_image (image_mediaPath idx bytes), image_mediaPath] at hnumber
      simpa [eq_comm] using hnumber
  | true =>
      rw [image_of_video (video_mediaPath idx bytes), video_mediaPath] at hnumber
      simpa [eq_comm] using hnumber

theorem Numbered.store (hnumbered : Numbered files bound) {idx : UInt32} {vid : Bool}
    (hidx : idx.toNat ≤ bound) (bytes : List UInt8) :
    Numbered (files.store (mediaPath idx vid) bytes) bound := by
  intro entry hmem hlisted other hother
  rcases mem_store hmem with hold | rfl
  · exact hnumbered entry hold hlisted other hother
  · rwa [number_mediaPath hother]

theorem Above.storeImage (habove : Above files nextIdx nextVid) {idx : UInt32}
    (hidx : idx < nextIdx) (bytes : List UInt8) :
    Above (files.store (mediaPath idx false) bytes) nextIdx nextVid := by
  intro entry hmem hlisted
  rcases mem_store hmem with hold | rfl
  · exact habove entry hold hlisted
  · refine ⟨fun other hother => ?_, fun other hother => ?_⟩
    · rwa [number_mediaPath (.inl hother)]
    · rw [video_of_image (image_mediaPath idx bytes)] at hother
      cases hother

theorem Above.storeVideo (habove : Above files nextIdx nextVid) {idx : UInt32}
    (hidx : idx < nextVid) (bytes : List UInt8) :
    Above (files.store (mediaPath idx true) bytes) nextIdx nextVid := by
  intro entry hmem hlisted
  rcases mem_store hmem with hold | rfl
  · exact habove entry hold hlisted
  · refine ⟨fun other hother => ?_, fun other hother => ?_⟩
    · rw [image_of_video (video_mediaPath idx bytes)] at hother
      cases hother
    · rwa [number_mediaPath (.inr hother)]

theorem Above.next {nextIdx' nextVid' : UInt32} (habove : Above files nextIdx nextVid)
    (himage : nextIdx ≤ nextIdx') (hvideo : nextVid ≤ nextVid') : Above files nextIdx' nextVid' :=
  fun entry hmem hlisted =>
    ⟨fun idx hidx => UInt32.lt_of_lt_of_le ((habove entry hmem hlisted).1 idx hidx) himage,
      fun idx hidx => UInt32.lt_of_lt_of_le ((habove entry hmem hlisted).2 idx hidx) hvideo⟩

end Numbers

/-! ## Over a run -/

/-- The card holds what was reported. -/
def Holds (files : Files) (log : List Output) : Prop :=
  ∀ path bytes, kept log path = some bytes → files.read path = some bytes

/-- What every event keeps. -/
structure Stored (bound : ℕ) (s : State) (log : List Output) : Prop where
  holds : Holds s.files log
  fresh : Fresh log
  numbered : Numbered s.files bound
  nextIdx : s.node.nextIdx.toNat ≤ bound + 1
  nextVid : s.node.nextVid.toNat ≤ bound + 1
  above : s.node.sdOk = true → Above s.files s.node.nextIdx s.node.nextVid
  recording : ∀ r, s.node.recording = some r → s.node.sdOk = true ∧ r.idx < s.node.nextVid ∧
    kept log (mediaPath r.idx true) = none

/-- The folder can be read when the card is mounted, and a recording is not deleted before
its end. -/
def Careful (s : State) : Event → Prop
  | .beginStorage busFree mounts dirOpens _ => busFree = true → mounts = true → dirOpens = true
  | .photoDelete idx vid _ _ _ =>
      ∀ r, s.node.recording = some r → mediaPath idx vid ≠ mediaPath r.idx true
  | _ => True

section Steps

variable {bound : ℕ} {s : State} {log : List Output} {files : Files} {path : Text}

theorem Holds.store (hholds : Holds files log) (hnone : kept log path = none)
    (bytes : List UInt8) : Holds (files.store path bytes) log := by
  intro other content hkept
  have hne : other ≠ path := by
    rintro rfl
    rw [hnone] at hkept
    cases hkept
  rw [read_store_of_ne hne]
  exact hholds other content hkept

theorem Holds.remove (hholds : Holds files log) (hnone : kept log path = none) :
    Holds (files.remove path) log := by
  intro other content hkept
  have hne : other ≠ path := by
    rintro rfl
    rw [hnone] at hkept
    cases hkept
  rw [read_remove_of_ne hne]
  exact hholds other content hkept

/-- Nothing was reported under the next numbers. -/
theorem Stored.nextImage_none (hstored : Stored bound s log) (hsd : s.node.sdOk = true) :
    kept log (mediaPath s.node.nextIdx false) = none := by
  cases hkept : kept log (mediaPath s.node.nextIdx false) with
  | none => rfl
  | some bytes =>
      have hmem := mem_of_read (hstored.holds _ _ hkept)
      have hlt := (hstored.above hsd _ hmem (listed_mediaPath _ _ _)).1 _ (image_mediaPath _ _)
      exact absurd hlt (UInt32.lt_irrefl _)

theorem Stored.nextVideo_none (hstored : Stored bound s log) (hsd : s.node.sdOk = true) :
    kept log (mediaPath s.node.nextVid true) = none := by
  cases hkept : kept log (mediaPath s.node.nextVid true) with
  | none => rfl
  | some bytes =>
      have hmem := mem_of_read (hstored.holds _ _ hkept)
      have hlt := (hstored.above hsd _ hmem (listed_mediaPath _ _ _)).2 _ (video_mediaPath _ _)
      exact absurd hlt (UInt32.lt_irrefl _)

theorem Stored.mono {more : ℕ} (hstored : Stored bound s log) (hle : bound ≤ more) :
    Stored more s log :=
  { hstored with
    numbered := hstored.numbered.mono hle
    nextIdx := hstored.nextIdx.trans (by omega)
    nextVid := hstored.nextVid.trans (by omega) }

/-- Power fails: whatever was open is not yet reported. -/
theorem stored_powerFails (hstored : Stored bound s log) (left recording : Option (List UInt8))
    (camera : Bool) : Stored (bound + 1) ⟨.boot camera, tear left recording s⟩ log := by
  have hmore := hstored.numbered.mono (Nat.le_succ bound)
  have htear : Holds (tear left recording s) log ∧
      Numbered (tear left recording s) (bound + 1) := by
    unfold tear
    extract_lets files
    have himage : Holds files log ∧ Numbered files (bound + 1) := by
      cases left with
      | none => exact ⟨hstored.holds, hmore⟩
      | some bytes =>
          cases hsd : s.node.sdOk with
          | false =>
              have hfiles : files = s.files := by simp [files, hsd]
              rw [hfiles]
              exact ⟨hstored.holds, hmore⟩
          | true =>
              have hfiles : files = s.files.store (mediaPath s.node.nextIdx false) bytes := by
                simp [files, hsd]
              rw [hfiles]
              exact ⟨hstored.holds.store (hstored.nextImage_none hsd) bytes,
                hmore.store hstored.nextIdx bytes⟩
    cases hrec : s.node.recording with
    | none => exact himage
    | some r =>
        obtain ⟨-, hidx, hnone⟩ := hstored.recording r hrec
        have hsmall : r.idx.toNat ≤ bound + 1 :=
          (UInt32.lt_iff_toNat_lt.mp hidx).le.trans hstored.nextVid
        dsimp only
        split
        · cases recording with
          | none => exact ⟨himage.1.remove hnone, himage.2.remove _⟩
          | some bytes => exact ⟨himage.1.store hnone bytes, himage.2.store hsmall bytes⟩
        · exact himage
  exact ⟨htear.1, hstored.fresh, htear.2, by simp [Node.boot], by simp [Node.boot],
    fun hsd => (by cases hsd), fun r hr => (by cases hr)⟩

theorem stored_beginStorage (hstored : Stored bound s log) (hbound : bound + 1 < 2 ^ 32)
    {busFree mounts dirOpens : Bool} (usage : Usage)
    (hcareful : busFree = true → mounts = true → dirOpens = true) :
    Stored bound (beginStorage busFree mounts dirOpens usage s) log := by
  unfold beginStorage
  split
  · rename_i hmounts
    have hopens := hcareful hmounts.1 hmounts.2
    obtain ⟨himage, hvideo, -, hle, habove⟩ :=
      foldl_resume hbound hstored.numbered (s.node.nextIdx, s.node.nextVid) hstored.nextIdx
        hstored.nextVid
    simp only [hopens, if_true]
    refine
      { hstored with
        nextIdx := himage
        nextVid := hvideo
        above := fun _ => habove
        recording := fun r hr => ?_ }
    obtain ⟨-, hidx, hnone⟩ := hstored.recording r hr
    exact ⟨rfl, UInt32.lt_of_lt_of_le hidx hle, hnone⟩
  · exact hstored

/-- A report of a path that holds nothing yet. -/
theorem Stored.report (hstored : Stored bound s log) {idx : UInt32} {vid : Bool}
    {bytes : List UInt8} (output : Output)
    (hreported : reported output = some (mediaPath idx vid, bytes))
    (hnone : kept log (mediaPath idx vid) = none) (hidx : idx.toNat ≤ bound) :
    Holds (s.files.store (mediaPath idx vid) bytes) (log ++ [output]) ∧ Fresh (log ++ [output]) ∧
      Numbered (s.files.store (mediaPath idx vid) bytes) bound ∧
      ∀ path, path ≠ mediaPath idx vid → kept (log ++ [output]) path = kept log path := by
  have hkept : ∀ path, kept (log ++ [output]) path =
      if mediaPath idx vid = path then some bytes else kept log path := by
    intro path
    cases output with
    | saved other content =>
        cases hreported
        exact kept_saved
    | recorded other content =>
        cases hreported
        exact kept_recorded
    | _ => cases hreported
  refine ⟨fun path content hheld => ?_, fresh_snoc hstored.fresh fun path content hother => ?_,
    hstored.numbered.store hidx bytes, fun path hne => ?_⟩
  · rw [hkept] at hheld
    split at hheld
    · rename_i hpath
      rw [← hpath, read_store_self, hheld]
    · exact hstored.holds.store hnone bytes path content hheld
  · rw [hreported] at hother
    cases hother
    exact hnone
  · rw [hkept, if_neg (Ne.symm hne)]

/-- A report that is not of a file on the card. -/
theorem Stored.tells (hstored : Stored bound s log) (output : Output)
    (hsame : ∀ path, kept (log ++ [output]) path = kept log path)
    (hreported : reported output = none) : Stored bound s (log ++ [output]) where
  holds path bytes hheld := hstored.holds path bytes (hsame path ▸ hheld)
  fresh := fresh_snoc hstored.fresh fun path bytes hother => by
    rw [hreported] at hother
    cases hother
  numbered := hstored.numbered
  nextIdx := hstored.nextIdx
  nextVid := hstored.nextVid
  above := hstored.above
  recording r hr := by
    rw [hsame]
    exact hstored.recording r hr

theorem stored_snap (hstored : Stored bound s log) (hbound : bound + 2 < 2 ^ 32) (camFree : Bool)
    (fb : Option Frame) (busFree opens : Bool) (written : ℕ) (usage : Usage) :
    Stored (bound + 1) (snap camFree fb busFree opens written usage s).1
      (log ++ (snap camFree fb busFree opens written usage s).2) := by
  have hmore := hstored.mono (Nat.le_succ bound)
  have hnothing : Stored (bound + 1) s (log ++ []) := by rwa [List.append_nil]
  unfold snap
  split
  · exact hnothing
  · cases fb with
    | none => exact hnothing
    | some fb =>
        have hunsaved := hmore.tells (.unsaved (unsavedName fb) fb.buf.length)
          (fun path => kept_unsaved) rfl
        dsimp only
        split
        · rename_i hsaves
          have hnone := hstored.nextImage_none hsaves.1
          split
          · obtain ⟨hlt, hsucc⟩ := lt_next hstored.nextIdx hbound
            obtain ⟨hholds, hfresh, hnumbered, hsame⟩ := hmore.report
              (.saved (mediaPath s.node.nextIdx false) fb.buf) rfl hnone hstored.nextIdx
            have hnext := hstored.nextIdx
            refine ⟨hholds, hfresh, hnumbered, hsucc.trans_le (by omega), hmore.nextVid,
              fun hsd => ?_, fun r hr => ?_⟩
            · exact ((hstored.above hsd).next (UInt32.le_of_lt hlt) (UInt32.le_refl _)).storeImage
                hlt fb.buf
            · obtain ⟨hsd, hidx, hrec⟩ := hstored.recording r hr
              exact ⟨hsd, hidx, (hsame _ (mediaPath_ne _ _).symm).trans hrec⟩
          · refine
              { hunsaved with
                holds := ?_
                numbered := ?_
                above := fun hsd => ?_ }
            · exact hunsaved.holds.remove (kept_unsaved.trans hnone)
            · exact hunsaved.numbered.remove _
            · exact (hunsaved.above hsd).remove _
        · exact hunsaved

theorem stored_recordStart (hstored : Stored bound s log) (hbound : bound + 2 < 2 ^ 32)
    (seconds : UInt16) (spawns : Bool) :
    Stored (bound + 1) (recordStart seconds spawns s).1
      (log ++ (recordStart seconds spawns s).2) := by
  have hmore := hstored.mono (Nat.le_succ bound)
  unfold recordStart
  split
  · rwa [List.append_nil]
  · rename_i hgoes
    obtain ⟨hlt, hsucc⟩ := lt_next hstored.nextVid hbound
    have hnext := hstored.nextVid
    have hsd : s.node.sdOk = true := by
      by_contra hno
      exact hgoes (.inr (.inl (by simpa using hno)))
    have hcounted : Stored (bound + 1)
        { s with node := { s.node with nextVid := s.node.nextVid + 1 } } log := by
      refine
        { hmore with
          nextVid := hsucc.trans_le (by omega)
          above := fun hsd => ?_
          recording := fun r hr => ?_ }
      · exact (hstored.above hsd).next (UInt32.le_refl _) (UInt32.le_of_lt hlt)
      · obtain ⟨-, hidx, hnone⟩ := hstored.recording r hr
        exact ⟨hsd, UInt32.lt_of_lt_of_le hidx (UInt32.le_of_lt hlt), hnone⟩
    dsimp only
    split
    · refine Stored.tells ?_ _ (fun path => kept_started) rfl
      refine { hcounted with recording := fun r hr => ?_ }
      cases hr
      exact ⟨hsd, hlt, hstored.nextVideo_none hsd⟩
    · rwa [List.append_nil]

theorem stored_recordStop (hstored : Stored bound s log) : Stored bound (recordStop s) log := by
  refine { hstored with recording := fun r hr => ?_ }
  obtain ⟨before, hbefore, rfl⟩ := Option.map_eq_some_iff.mp hr
  exact hstored.recording before hbefore

/-- The recording's file, while nothing is reported of it. -/
theorem Stored.writes (hstored : Stored bound s log) {r : Recording} (r' : Recording)
    (hrec : s.node.recording = some r) (hsame : r'.idx = r.idx) (bytes : List UInt8) :
    Stored (bound + 1) { node := { s.node with recording := some r' }
                         files := s.files.store (mediaPath r.idx true) bytes } log := by
  obtain ⟨hsd, hidx, hnone⟩ := hstored.recording r hrec
  have hmore := hstored.mono (Nat.le_succ bound)
  have hsmall : r.idx.toNat ≤ bound + 1 :=
    (UInt32.lt_iff_toNat_lt.mp hidx).le.trans hstored.nextVid
  refine
    { hmore with
      holds := hstored.holds.store hnone bytes
      numbered := hmore.numbered.store hsmall bytes
      above := fun hsd => ?_
      recording := fun other hother => ?_ }
  · exact (hstored.above hsd).storeVideo hidx bytes
  · cases hother
    rw [hsame]
    exact ⟨hsd, hidx, hnone⟩

theorem stored_recOpen (hstored : Stored bound s log) (opens : Bool) (now : UInt32) :
    Stored (bound + 1) (recOpen opens now s) log := by
  have hmore := hstored.mono (Nat.le_succ bound)
  unfold recOpen
  cases hrec : s.node.recording with
  | none => exact hmore
  | some r =>
      dsimp only
      split
      · exact hmore
      · split
        · exact hstored.writes { r with open? := some (.start, now) } hrec rfl []
        · exact { hmore with recording := fun other hother => (by cases hother) }

theorem stored_recTurn (hstored : Stored bound s log) (now : UInt32) (fb : Option Frame)
    (busFree : Bool) (usage : Usage) :
    Stored (bound + 1) (recTurn now fb busFree usage s).1
      (log ++ (recTurn now fb busFree usage s).2) := by
  have hmore := hstored.mono (Nat.le_succ bound)
  have hnothing : Stored (bound + 1) s (log ++ []) := by rwa [List.append_nil]
  unfold recTurn
  cases hrec : s.node.recording with
  | none => exact hnothing
  | some r =>
      obtain ⟨hsd, hidx, hnone⟩ := hstored.recording r hrec
      have hsmall : r.idx.toNat ≤ bound + 1 :=
        (UInt32.lt_iff_toNat_lt.mp hidx).le.trans hstored.nextVid
      dsimp only
      cases r.open? with
      | none => exact hnothing
      | some task =>
          dsimp only
          split
          · cases fb with
            | none => exact hnothing
            | some fb =>
                rw [List.append_nil]
                exact hstored.writes { r with open? := some (recFrame task.1 fb, task.2) }
                  hrec rfl _
          · split
            · cases finalize task.1 (now - task.2) with
              | none =>
                  rw [List.append_nil]
                  exact
                    { hmore with
                      holds := hmore.holds.remove hnone
                      numbered := hmore.numbered.remove _
                      above := fun hsd => (hmore.above hsd).remove _
                      recording := fun other hother => by cases hother }
              | some bytes =>
                  obtain ⟨hholds, hfresh, hnumbered, -⟩ := hmore.report
                    (.recorded (mediaPath r.idx true) bytes) rfl hnone hsmall
                  exact ⟨hholds, hfresh, hnumbered, hmore.nextIdx, hmore.nextVid,
                    fun hsd => (hmore.above hsd).storeVideo hidx bytes,
                    fun other hother => (by cases hother)⟩
            · rw [List.append_nil]
              exact { hmore with recording := fun other hother => (by cases hother) }

theorem stored_photoDelete (hstored : Stored bound s log) (idx : UInt32) (vid : Bool)
    (busFree removes : Bool) (usage : Usage)
    (hcareful : ∀ r, s.node.recording = some r → mediaPath idx vid ≠ mediaPath r.idx true) :
    Stored bound (photoDelete idx vid busFree removes usage s).1
      (log ++ (photoDelete idx vid busFree removes usage s).2) := by
  unfold photoDelete
  dsimp only
  split
  · refine ⟨fun path bytes hheld => ?_,
      fresh_snoc hstored.fresh (fun _ _ hother => by cases hother),
      hstored.numbered.remove _, hstored.nextIdx, hstored.nextVid,
      fun hsd => (hstored.above hsd).remove _, fun r hr => ?_⟩
    · rw [kept_deleted] at hheld
      split at hheld
      · cases hheld
      · rename_i hne
        rw [read_remove_of_ne (Ne.symm hne)]
        exact hstored.holds path bytes hheld
    · obtain ⟨hsd, hidx, hnone⟩ := hstored.recording r hr
      rw [kept_deleted, if_neg (hcareful r hr)]
      exact ⟨hsd, hidx, hnone⟩
  · rwa [List.append_nil]

theorem stored_step (hstored : Stored bound s log) (hbound : bound + 2 < 2 ^ 32) {event : Event}
    (hcareful : Careful s event) :
    Stored (bound + 1) (step s event).1 (log ++ (step s event).2) := by
  cases event with
  | powerFails left recording camera =>
      rw [step, List.append_nil]
      exact stored_powerFails hstored left recording camera
  | beginStorage busFree mounts dirOpens usage =>
      rw [step, List.append_nil]
      exact (stored_beginStorage hstored (by omega) usage hcareful).mono (Nat.le_succ _)
  | snap camFree fb busFree opens written usage =>
      exact stored_snap hstored hbound camFree fb busFree opens written usage
  | recordStart seconds spawns => exact stored_recordStart hstored hbound seconds spawns
  | recordStop =>
      rw [step, List.append_nil]
      exact (stored_recordStop hstored).mono (Nat.le_succ _)
  | recOpen opens now =>
      rw [step, List.append_nil]
      exact stored_recOpen hstored opens now
  | recTurn now fb busFree usage => exact stored_recTurn hstored now fb busFree usage
  | photoDelete idx vid busFree removes usage =>
      exact (stored_photoDelete hstored idx vid busFree removes usage hcareful).mono
        (Nat.le_succ _)

theorem stored_run {bound : ℕ} {s : State} {log : List Output} (events : List Event)
    (hstored : Stored bound s log) (hfew : bound + events.length + 1 < 2 ^ 32)
    (hcareful : Machine.Along step Careful s events) :
    Stored (bound + events.length) (Machine.run step s events).1
      (log ++ (Machine.run step s events).2) := by
  induction events generalizing bound s log with
  | nil => simpa [Machine.run] using hstored
  | cons event rest ih =>
      rw [List.length_cons] at hfew ⊢
      have hstep := stored_step hstored (by omega) hcareful.1
      have hrest := ih hstep (by omega) hcareful.2
      rw [List.append_assoc, Nat.add_assoc, Nat.add_comm 1] at hrest
      exact hrest

end Steps

/-- From a card with any files, through any captures, deletions, power failures and new
starts: what was reported as saved or recorded and not deleted since is on the card as it was
reported, and no report is of a path that still holds an earlier capture. -/
theorem captures_kept {files : Files} {highest : ℕ} (hnumbered : Numbered files highest)
    (camera : Bool) (events : List Event) (hfew : highest + events.length + 1 < 2 ^ 32)
    (hcareful : Machine.Along step Careful ⟨.boot camera, files⟩ events) :
    (∀ path bytes, kept (life files camera events).2 path = some bytes →
        (life files camera events).1.files.read path = some bytes) ∧
      Fresh (life files camera events).2 := by
  have hboot : Stored highest ⟨.boot camera, files⟩ [] := by
    refine ⟨?_, ?_, hnumbered, by simp [Node.boot], by simp [Node.boot], ?_, ?_⟩
    · intro path bytes hheld
      cases hheld
    · intro before output after hsplit
      simp at hsplit
    · intro hsd
      cases hsd
    · intro r hr
      cases hr
  have hrun := stored_run events hboot hfew hcareful
  rw [List.nil_append] at hrun
  exact ⟨hrun.holds, hrun.fresh⟩

/-- A card with one picture, and a day on which power fails after a recording. -/
def exampleCard : Files := [⟨mediaPath 7 false, [0xFF]⟩]

def exampleDay : List Event :=
  [.beginStorage true true true ⟨100, 40⟩,
    .snap true (some ⟨8, 6, [1, 2]⟩) true true 2 ⟨100, 41⟩,
    .recordStart 5 true, .recOpen true 0, .recTurn 1 (some ⟨8, 6, [3]⟩) true ⟨100, 41⟩,
    .recordStop, .recTurn 400 none true ⟨100, 42⟩,
    .photoDelete 7 false true true ⟨100, 41⟩, .powerFails (some [4]) none true,
    .beginStorage true true true ⟨100, 42⟩,
    .snap true (some ⟨8, 6, [5, 6]⟩) true true 2 ⟨100, 43⟩]

theorem captures_kept_day :
    (life exampleCard true exampleDay).1.files.read (mediaPath 8 false) = some [1, 2] ∧
      Fresh (life exampleCard true exampleDay).2 := by
  have hnumbered : Numbered exampleCard 7 := by
    intro entry hmem _ idx hidx
    rw [List.mem_singleton.mp hmem] at hidx
    rw [number_mediaPath hidx]
    decide
  have hday := captures_kept hnumbered true exampleDay (by decide)
    ⟨fun _ _ => rfl, trivial, trivial, trivial, trivial, trivial, trivial,
      fun r _ => mediaPath_ne _ _, trivial, fun _ _ => rfl, trivial, trivial⟩
  exact ⟨hday.1 _ _ (by decide +kernel), hday.2⟩

end LoraBridge.Captures
