import LoraBridge.Codec.MeshCoreDecoder

/-!
# Group texts

The frames `extractMeshCoreBody` opens, as a grammar: a header byte, transport codes on
two of the four routes, a path, and the channel hash, MAC and ciphertext behind it.
-/

namespace LoraBridge.GroupTexts

open LoraBridge.Cipher LoraBridge.Memory LoraBridge.MeshCoreDecoder LoraBridge.MeshtasticDecoder

/-- A GRP_TXT frame. -/
structure GroupText where
  header : UInt8
  codes : List UInt8
  path : List UInt8
  channelHash : UInt8
  mac : List.Vector UInt8 2
  ciphertext : List UInt8
  version_zero : (header >>> 6) &&& 0x03 = 0
  group_text : (header >>> 2) &&& 0x0F = 0x05
  codes_length : codes.length =
    if header &&& 0x03 = 0x00 ∨ header &&& 0x03 = 0x03 then 4 else 0
  path_length : path.length ≤ 64

/-- The bytes in front of the channel hash. -/
def GroupText.route (text : GroupText) : List UInt8 :=
  text.header :: text.codes ++ UInt8.ofNat text.path.length :: text.path

/-- The bytes on the air. -/
def GroupText.frame (text : GroupText) : List UInt8 :=
  text.route ++ text.channelHash :: (text.mac.toList ++ text.ciphertext)

theorem GroupText.length_frame (text : GroupText) :
    text.frame.length = text.route.length + 3 + text.ciphertext.length := by
  simp [GroupText.frame]
  omega

/-- The code finds the channel hash of a group text. -/
theorem GroupText.payloadOffset_frame (text : GroupText) :
    payloadOffset (.ofList text.frame) text.frame.length = .ok (some text.route.length) := by
  have hheader : Pointer.ofList text.frame 0 = .ok text.header := rfl
  have hpath : Pointer.ofList text.frame (1 + text.codes.length) =
      .ok (UInt8.ofNat text.path.length) := by
    have hread := ofList_append_cons (text.header :: text.codes) (UInt8.ofNat text.path.length)
      (text.path ++ text.channelHash :: (text.mac.toList ++ text.ciphertext))
    rw [List.length_cons, Nat.add_comm] at hread
    rw [GroupText.frame, GroupText.route, List.append_assoc]
    exact hread
  have hbyte : (UInt8.ofNat text.path.length).toNat = text.path.length := by
    have hle := text.path_length
    rw [UInt8.toNat_ofNat', Nat.mod_eq_of_lt (by omega)]
  have hroute : text.route.length = 1 + text.codes.length + 1 + text.path.length := by
    simp [GroupText.route]
    omega
  have hlength := text.length_frame
  have hoffset : pathOffset (text.header &&& 0x03) text.frame.length =
      some (1 + text.codes.length) := by
    have hcodes := text.codes_length
    rw [pathOffset]
    split at hcodes
    · rw [if_pos ‹_›, if_neg (by omega), hcodes]
    · rw [if_neg ‹_›, hcodes]
  have hle := text.path_length
  simp only [payloadOffset, hheader, bind, Except.bind, text.version_zero, text.group_text,
    ne_eq, not_true_eq_false, if_false, hoffset, hpath, hbyte]
  rw [if_neg (by omega), if_neg (by omega), hroute]

theorem exists_split {bytes : List UInt8} {i : ℕ} {byte : UInt8}
    (hbyte : Pointer.ofList bytes i = .ok byte) :
    bytes = bytes.take i ++ byte :: bytes.drop (i + 1) := by
  obtain ⟨hi, rfl⟩ := List.getElem?_eq_some_iff.mp (ofList_eq_ok_iff.mp hbyte)
  rw [← List.drop_eq_getElem_cons hi, List.take_append_drop]

theorem base_of_pathOffset {routeType : UInt8} {len base : ℕ}
    (hbase : pathOffset routeType len = some base) :
    base = 1 + if routeType = 0x00 ∨ routeType = 0x03 then 4 else 0 := by
  rw [pathOffset] at hbase
  split at hbase
  · split at hbase
    · cases hbase
    · rw [if_pos ‹_›]
      exact (Option.some.inj hbase).symm
  · rw [if_neg ‹_›]
    exact (Option.some.inj hbase).symm

/-- The channel hash, the MAC and the ciphertext. -/
theorem exists_tail {rest : List UInt8} (hlength : 3 ≤ rest.length) :
    ∃ (channelHash : UInt8) (mac : List.Vector UInt8 2) (ciphertext : List UInt8),
      rest = channelHash :: (mac.toList ++ ciphertext) := by
  match rest, hlength with
  | channelHash :: mac0 :: mac1 :: ciphertext, _ =>
      exact ⟨channelHash, ⟨[mac0, mac1], rfl⟩, ciphertext, rfl⟩

/-- Every frame whose channel hash and MAC the code finds is a group text. -/
theorem exists_frame_of_payloadOffset {frame : List UInt8} {off : ℕ}
    (hoffset : payloadOffset (.ofList frame) frame.length = .ok (some off))
    (hmac : off + 3 ≤ frame.length) :
    ∃ text : GroupText, text.frame = frame ∧ text.route.length = off := by
  obtain ⟨header, hheader, hoffset⟩ := bind_eq_ok.mp hoffset
  dsimp only at hoffset
  split at hoffset
  · cases hoffset
  rename_i hversion
  split at hoffset
  · cases hoffset
  rename_i htype
  cases hpath : pathOffset (header &&& 0x03) frame.length with
  | none =>
      rw [hpath] at hoffset
      cases hoffset
  | some base =>
      rw [hpath] at hoffset
      dsimp only at hoffset
      split at hoffset
      · cases hoffset
      obtain ⟨pathLen, hpathLen, hoffset⟩ := bind_eq_ok.mp hoffset
      split at hoffset
      · cases hoffset
      rename_i hfits
      obtain rfl := Option.some.inj (Except.ok.inj hoffset)
      -- the head up to the path length, the path, and the rest
      have hcut := exists_split hpathLen
      have hcodes := base_of_pathOffset hpath
      have hhead : frame.take base = header :: (frame.take base).tail := by
        have hfirst : frame[0]? = some header := ofList_eq_ok_iff.mp hheader
        cases frame with
        | nil => simp at hfirst
        | cons b rest =>
            obtain ⟨k, rfl⟩ : ∃ k, base = k + 1 := ⟨base - 1, by omega⟩
            obtain rfl : b = header := by simpa using hfirst
            rfl
      obtain ⟨channelHash, mac, ciphertext, hrest⟩ :=
        exists_tail (show 3 ≤ ((frame.drop (base + 1)).drop pathLen.toNat).length by
          rw [List.length_drop, List.length_drop]
          omega)
      have hpathLength : ((frame.drop (base + 1)).take pathLen.toNat).length = pathLen.toNat := by
        rw [List.length_take, List.length_drop]
        omega
      have hcodesLength : (frame.take base).tail.length =
          if header &&& 0x03 = 0x00 ∨ header &&& 0x03 = 0x03 then 4 else 0 := by
        rw [List.length_tail, List.length_take]
        omega
      refine ⟨⟨header, (frame.take base).tail, (frame.drop (base + 1)).take pathLen.toNat,
        channelHash, mac, ciphertext, not_not.mp hversion, not_not.mp htype, hcodesLength,
        by omega⟩, ?_, ?_⟩
      · simp only [GroupText.frame, GroupText.route]
        rw [hpathLength, UInt8.ofNat_toNat, ← hhead, List.append_assoc, List.cons_append,
          ← hrest, List.take_append_drop]
        exact hcut.symm
      · simp only [GroupText.route]
        rw [← hhead, List.length_append, List.length_cons, hpathLength, List.length_take]
        omega

/-! ## What the extractor returns -/

/-- `mbedtls_aes_setkey_dec(&aes, ch.key, 128)`. -/
def channelKey (ch : RadioChannel) : List UInt8 := ch.key.toList.take 16

def GroupText.plaintext (aes : BlockCipher) (ch : RadioChannel) (text : GroupText) : List UInt8 :=
  cryptEcb (aes.decrypt (channelKey ch)) (text.ciphertext.length / 16) text.ciphertext

/-- Up to the terminator. -/
def GroupText.body (aes : BlockCipher) (ch : RadioChannel) (text : GroupText) : List UInt8 :=
  ((text.plaintext aes ch).drop 5).takeWhile (· ≠ 0)

/-- Addressed to the channel, in whole blocks that fit `pt[224]`, and not empty. -/
structure GroupText.Opens (aes : BlockCipher) (ch : RadioChannel) (text : GroupText) : Prop where
  channel : text.channelHash = ch.channelHash
  some_block : text.ciphertext.length ≠ 0
  whole_blocks : text.ciphertext.length % 16 = 0
  fits : text.ciphertext.length ≤ 224
  body_ne_nil : text.body aes ch ≠ []

theorem scanString_eq (bytes : List UInt8) (limit : ℕ) {start : ℕ}
    (hend : start + limit = bytes.length) :
    scanString (.ofList bytes) start limit = .ok ((bytes.drop start).takeWhile (· ≠ 0)) := by
  induction limit generalizing start with
  | zero =>
      rw [List.drop_of_length_le (by omega)]
      rfl
  | succ limit ih =>
      have hstart : start < bytes.length := by omega
      rw [List.drop_eq_getElem_cons hstart]
      simp only [scanString, ofList_eq_ok hstart, @ih (start + 1) (by omega), bind, Except.bind]
      by_cases hzero : bytes[start] = 0
      · rw [if_pos hzero, List.takeWhile_cons_of_neg (by simpa using hzero)]
      · rw [if_neg hzero, List.takeWhile_cons_of_pos (by simpa using hzero)]

variable {aes : BlockCipher} {ch : RadioChannel}

/-- The ciphertext, where the code reads it. -/
theorem GroupText.readRange_frame (text : GroupText) :
    readRange (.ofList text.frame) (text.route.length + 3)
      (text.frame.length - (text.route.length + 3)) = .ok text.ciphertext := by
  have hlength := text.length_frame
  have hct : text.frame.length - (text.route.length + 3) = text.ciphertext.length := by omega
  have hdrop : text.frame.drop (text.route.length + 3) = text.ciphertext := by
    rw [GroupText.frame, ← List.drop_drop, List.drop_left, List.drop_succ_cons]
    exact List.drop_left' text.mac.toList_length
  rw [hct, readRange_ofList _ _ (by omega), hdrop, List.take_length]

theorem GroupText.length_plaintext (text : GroupText)
    (hwhole : text.ciphertext.length % 16 = 0) :
    (text.plaintext aes ch).length = text.ciphertext.length := by
  rw [GroupText.plaintext, length_cryptEcb (aes.length_decrypt _)]
  omega

theorem extractMeshCoreBody_frame (text : GroupText) {cap : ℕ} (hcap : 2 ≤ cap)
    (hopens : text.Opens aes ch) :
    ∃ ts, word32 (.ofList (text.plaintext aes ch)) 0 = .ok ts ∧
      extractMeshCoreBody aes ch (.ofList text.frame) text.frame.length cap =
        .ok (some ((text.body aes ch).take (cap - 1), ts)) := by
  have hlength := text.length_frame
  have hblocks := hopens.some_block
  have hwhole := hopens.whole_blocks
  have hfits := hopens.fits
  have hct : text.frame.length - (text.route.length + 3) = text.ciphertext.length := by omega
  have hhash : Pointer.ofList text.frame text.route.length = .ok ch.channelHash := by
    rw [← hopens.channel]
    exact ofList_append_cons _ _ _
  have hread := text.readRange_frame
  have hplain := @GroupText.length_plaintext aes ch text hwhole
  have hbuffer : intoBuffer 224 (text.plaintext aes ch) = .ok (text.plaintext aes ch) :=
    if_pos (by omega)
  obtain ⟨ts, hts⟩ := word32_of_readable (readable_ofList (text.plaintext aes ch))
    (show 0 + 4 ≤ _ by omega)
  have hscan : scanString (.ofList (text.plaintext aes ch)) 5 (text.ciphertext.length - 5) =
      .ok (text.body aes ch) := scanString_eq _ _ (by omega)
  have hbody : (text.body aes ch).length ≠ 0 := by
    simpa using hopens.body_ne_nil
  have hstring : intoCString cap ((text.body aes ch).take (cap - 1)) =
      .ok ((text.body aes ch).take (cap - 1)) :=
    if_pos (by rw [List.length_take]; omega)
  have htake : (text.body aes ch).take (min (text.body aes ch).length (cap - 1)) =
      (text.body aes ch).take (cap - 1) := by
    rw [Nat.min_comm, ← List.take_take, List.take_length]
  refine ⟨ts, hts, ?_⟩
  rw [extractMeshCoreBody, if_neg (by omega), if_neg (by omega), text.payloadOffset_frame]
  simp only [bind, Except.bind]
  rw [if_neg (by omega), hhash]
  simp only [hct, ne_eq, not_true_eq_false, if_false] at hread ⊢
  rw [if_neg (by omega), hread]
  simp only []
  have hpt : cryptEcb (aes.decrypt (ch.key.toList.take 16)) (text.ciphertext.length / 16)
      text.ciphertext = text.plaintext aes ch := rfl
  rw [hpt, hbuffer]
  simp only [hts, hscan, hbody, htake, hstring, if_false]
  rw [if_neg (by omega)]

/-- Only such frames are opened. -/
theorem opens_of_extractMeshCoreBody {frame : List UInt8} {cap : ℕ}
    {result : List UInt8 × UInt32}
    (hresult : extractMeshCoreBody aes ch (.ofList frame) frame.length cap = .ok (some result)) :
    2 ≤ cap ∧ ∃ text : GroupText, text.frame = frame ∧ text.Opens aes ch := by
  rw [extractMeshCoreBody] at hresult
  split at hresult
  · cases hresult
  rename_i hcap
  split at hresult
  · cases hresult
  obtain ⟨offset, hoffset, hresult⟩ := bind_eq_ok.mp hresult
  cases offset with
  | none => cases hresult
  | some off =>
      dsimp only at hresult
      split at hresult
      · cases hresult
      obtain ⟨text, rfl, rfl⟩ := exists_frame_of_payloadOffset hoffset (by omega)
      have hlength := text.length_frame
      have hct : text.frame.length - (text.route.length + 3) = text.ciphertext.length := by omega
      obtain ⟨channelHash, hhash, hresult⟩ := bind_eq_ok.mp hresult
      obtain rfl : text.channelHash = channelHash :=
        Except.ok.inj ((ofList_append_cons text.route text.channelHash
          (text.mac.toList ++ text.ciphertext)).symm.trans hhash)
      split at hresult
      · cases hresult
      rename_i hchannel
      split at hresult
      · cases hresult
      rename_i hblocks
      rw [text.readRange_frame] at hresult
      obtain ⟨ct, hread, hresult⟩ := bind_eq_ok.mp hresult
      obtain rfl := Except.ok.inj hread
      obtain ⟨pt, hbuffer, hresult⟩ := bind_eq_ok.mp hresult
      obtain rfl := eq_of_intoBuffer hbuffer
      split at hresult
      · cases hresult
      obtain ⟨ts, -, hresult⟩ := bind_eq_ok.mp hresult
      obtain ⟨scanned, hscanned, hresult⟩ := bind_eq_ok.mp hresult
      rw [hct] at hblocks hscanned
      have hwhole : text.ciphertext.length % 16 = 0 := by omega
      have hplain := @GroupText.length_plaintext aes ch text hwhole
      have hscan : scanString (.ofList (text.plaintext aes ch)) 5 (text.ciphertext.length - 5) =
          .ok (text.body aes ch) := scanString_eq _ _ (by omega)
      obtain rfl : text.body aes ch = scanned := Except.ok.inj (hscan.symm.trans hscanned)
      split at hresult
      · cases hresult
      rename_i hbody
      exact ⟨by omega, text, rfl, ⟨not_not.mp hchannel, by omega, hwhole, by omega,
        by simpa using hbody⟩⟩

/-- A frame has one channel hash, one MAC and one ciphertext. -/
theorem GroupText.parts_of_frame {text other : GroupText} (hframe : text.frame = other.frame) :
    text.channelHash = other.channelHash ∧ text.mac = other.mac ∧
      text.ciphertext = other.ciphertext := by
  have hroute : text.route.length = other.route.length := by
    have hoffset := text.payloadOffset_frame
    rw [hframe, other.payloadOffset_frame] at hoffset
    exact (Option.some.inj (Except.ok.inj hoffset)).symm
  obtain ⟨-, hrest⟩ := List.append_inj hframe hroute
  obtain ⟨hhash, hrest⟩ := List.cons.inj hrest
  obtain ⟨hmac, hciphertext⟩ := List.append_inj hrest (by simp)
  exact ⟨hhash, List.Vector.toList_injective hmac, hciphertext⟩

/-- What is opened of a group text. -/
theorem extractMeshCoreBody_frame_eq_some {text : GroupText} {cap : ℕ}
    {result : List UInt8 × UInt32}
    (hresult : extractMeshCoreBody aes ch (.ofList text.frame) text.frame.length cap =
      .ok (some result)) :
    text.Opens aes ch ∧ result.1 = (text.body aes ch).take (cap - 1) ∧
      word32 (.ofList (text.plaintext aes ch)) 0 = .ok result.2 := by
  obtain ⟨hcap, other, hframe, hopens⟩ := opens_of_extractMeshCoreBody hresult
  obtain ⟨hhash, -, hciphertext⟩ := GroupText.parts_of_frame hframe
  have hplain : other.plaintext aes ch = text.plaintext aes ch := by
    rw [GroupText.plaintext, GroupText.plaintext, hciphertext]
  have hopens' : text.Opens aes ch := by
    refine ⟨hhash ▸ hopens.channel, hciphertext ▸ hopens.some_block,
      hciphertext ▸ hopens.whole_blocks, hciphertext ▸ hopens.fits, ?_⟩
    rw [GroupText.body, ← hplain]
    exact hopens.body_ne_nil
  obtain ⟨ts, hts, hextract⟩ := extractMeshCoreBody_frame text hcap hopens'
  rw [hextract] at hresult
  obtain rfl := Option.some.inj (Except.ok.inj hresult)
  exact ⟨hopens', rfl, hts⟩

end LoraBridge.GroupTexts
