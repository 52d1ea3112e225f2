import LoraBridge.Dispatch.Enqueue

/-!
# The sender names of MeshCore

A MeshCore text starts with "name: ", and `parseMcSenderName` takes the two apart.  Its scan
looks for the colon at the first `BRIDGE_MC_NAME_MAX` offsets, while the colon of a name of
that length stands just behind them.  So the longest name the comment of the bound allows is
not found.
-/

namespace LoraBridge.SenderNames

open LoraBridge.Enqueue LoraBridge.Memory LoraBridge.NodeDB LoraBridge.Print

/-- `": "`. -/
def separator : List UInt8 := [0x3A, 0x20]

/-- Printable ASCII. -/
def Printable (c : UInt8) : Prop := 0x20 ≤ c ∧ c ≤ 0x7E

instance (c : UInt8) : Decidable (Printable c) := inferInstanceAs (Decidable (_ ∧ _))

/-- A name that a MeshCore text can start with. -/
structure SenderName where
  name : List UInt8
  pos : 0 < name.length
  le : name.length ≤ BRIDGE_MC_NAME_MAX
  printable : ∀ c ∈ name, Printable c
  noSpace : name.head? ≠ some 0x20
  noSeparator : ¬ separator <:+: name

/-- The body that carries a name and a text. -/
def SenderName.body (sender : SenderName) (text : List UInt8) : List UInt8 :=
  sender.name ++ separator ++ text

/-- The body starts with a name. -/
def Prefixed (body : List UInt8) : Prop :=
  ∃ (sender : SenderName) (text : List UInt8), body = sender.body text

/-! ## What the scan takes for a name -/

theorem separator_infix_cons {c : UInt8} {rest : List UInt8} :
    separator <:+: c :: rest ↔
      (c = 0x3A ∧ rest.head? = some 0x20) ∨ separator <:+: rest := by
  rw [List.infix_cons_iff]
  apply or_congr_left
  cases rest with
  | nil => simp [separator]
  | cons next rest => simp [separator, eq_comm]

/-- The bytes before a separator, `first` when they are read from the start of the body. -/
structure Plain (first : Bool) (name : List UInt8) : Prop where
  printable : ∀ c ∈ name, Printable c
  noSeparator : ¬ separator <:+: name
  begins : first → name ≠ [] ∧ name.head? ≠ some 0x20

theorem SenderName.plain (sender : SenderName) : Plain true sender.name :=
  ⟨sender.printable, sender.noSeparator, fun _ =>
    ⟨List.ne_nil_of_length_pos sender.pos, sender.noSpace⟩⟩

theorem plain_nil {first : Bool} : Plain first [] ↔ first = false := by
  refine ⟨fun hplain => ?_, fun hfirst => ⟨by simp, by simp [separator], by simp [hfirst]⟩⟩
  cases first with
  | false => rfl
  | true => exact absurd rfl (hplain.begins rfl).1

theorem plain_cons {first : Bool} {c : UInt8} {name : List UInt8} :
    Plain first (c :: name) ↔
      Printable c ∧ ¬ (first ∧ c = 0x20) ∧ ¬ (c = 0x3A ∧ name.head? = some 0x20) ∧
        Plain false name := by
  constructor
  · intro hplain
    have hseparator := mt separator_infix_cons.mpr hplain.noSeparator
    refine ⟨hplain.printable c List.mem_cons_self, ?_, fun hcolon => hseparator (.inl hcolon),
      fun other hother => hplain.printable other (List.mem_cons_of_mem _ hother),
      fun hinfix => hseparator (.inr hinfix), by simp⟩
    rintro ⟨hfirst, rfl⟩
    exact (hplain.begins hfirst).2 rfl
  · rintro ⟨hprintable, hspace, hcolon, hrest⟩
    refine ⟨?_, ?_, fun hfirst => ⟨List.cons_ne_nil _ _, ?_⟩⟩
    · intro other hother
      rcases List.mem_cons.mp hother with rfl | hother
      · exact hprintable
      · exact hrest.printable other hother
    · intro hinfix
      exact (separator_infix_cons.mp hinfix).elim hcolon hrest.noSeparator
    · intro hhead
      exact hspace ⟨hfirst, Option.some.inj hhead⟩

theorem not_printable {c : UInt8} : ¬ Printable c ↔ c < 0x20 ∨ 0x7E < c := by
  rw [Printable, not_and_or, UInt8.not_le, UInt8.not_le]

theorem scanName_colon (first : Bool) (limit : ℕ) (text : List UInt8) :
    scanName first (limit + 1) (separator ++ text) = if first then none else some ([], text) := by
  simp [scanName, separator]

/-- One turn of the scan, when no separator stands there. -/
theorem scanName_cons (first : Bool) (limit : ℕ) {c : UInt8} {rest : List UInt8}
    (hcolon : ¬ (c = 0x3A ∧ rest.head? = some 0x20)) :
    scanName first (limit + 1) (c :: rest) =
      if Printable c ∧ ¬ (first ∧ c = 0x20) then
        (scanName false limit rest).map fun (name, text) => (c :: name, text)
      else none := by
  rw [scanName, if_neg hcolon]
  by_cases hprintable : Printable c
  · have hzero : c ≠ 0 := by
      rintro rfl
      exact absurd hprintable.1 (by decide)
    rw [if_neg hzero, if_neg (fun hc => not_printable.mpr hc hprintable)]
    by_cases hspace : first ∧ c = 0x20
    · rw [if_pos hspace, if_neg fun hplain => hplain.2 hspace]
    · rw [if_neg hspace, if_pos ⟨hprintable, hspace⟩]
  · rw [if_pos (not_printable.mp hprintable), ite_self, ite_self,
      if_neg fun hplain => hprintable hplain.1]

/-- The scan finds a name if its colon stands at one of the offsets it looks at. -/
theorem scanName_eq_some {first : Bool} {limit : ℕ} {bytes name text : List UInt8} :
    scanName first limit bytes = some (name, text) ↔
      name.length < limit ∧ bytes = name ++ separator ++ text ∧ Plain first name := by
  induction bytes generalizing first limit name with
  | nil => cases limit <;> simp [scanName, separator]
  | cons c rest ih =>
      cases limit with
      | zero => simp [scanName]
      | succ limit =>
          by_cases hcolon : c = 0x3A ∧ rest.head? = some 0x20
          · -- the separator is here: only the empty name ends here
            obtain ⟨rfl, hhead⟩ := hcolon
            obtain ⟨after, rfl⟩ := List.head?_eq_some_iff.mp hhead
            rw [show (0x3A : UInt8) :: 0x20 :: after = separator ++ after from rfl,
              scanName_colon]
            cases name with
            | nil => cases first <;> simp [plain_nil, eq_comm]
            | cons d name =>
                have hplain : 0x3A :: 0x20 :: after = d :: name ++ separator ++ text →
                    ¬ Plain first (d :: name) := by
                  intro hbytes hplain
                  have htail := List.cons.inj hbytes
                  refine (plain_cons.mp hplain).2.2.1 ⟨htail.1.symm, ?_⟩
                  cases name with
                  | nil => exact absurd (List.cons.inj htail.2).1 (by decide)
                  | cons e name => exact congrArg some (List.cons.inj htail.2).1.symm
                cases first <;> simpa [separator] using fun _ => hplain
          · rw [scanName_cons first limit hcolon]
            cases name with
            | nil =>
                have hbytes : c :: rest ≠ separator ++ text := by
                  intro hbytes
                  obtain ⟨rfl, rfl⟩ := List.cons.inj hbytes
                  exact hcolon ⟨rfl, rfl⟩
                split <;> simp [hbytes]
            | cons d name =>
                rw [Option.ite_none_right_eq_some, plain_cons]
                constructor
                · rintro ⟨⟨hprintable, hspace⟩, hmap⟩
                  obtain ⟨⟨found, _⟩, hfound, heq⟩ := Option.map_eq_some_iff.mp hmap
                  cases heq
                  obtain ⟨hlength, rfl, hplain⟩ := ih.mp hfound
                  refine ⟨by simpa using hlength, rfl, hprintable, hspace, ?_, hplain⟩
                  intro hhead
                  obtain ⟨more, rfl⟩ := List.head?_eq_some_iff.mp hhead.2
                  exact hcolon ⟨hhead.1, rfl⟩
                · rintro ⟨hlength, hbytes, hprintable, hspace, -, hplain⟩
                  obtain ⟨rfl, hrest⟩ := List.cons.inj hbytes
                  have hfound := ih.mpr ⟨by simpa using hlength, hrest, hplain⟩
                  exact ⟨⟨hprintable, hspace⟩, by rw [hfound]; rfl⟩

/-! ## The reads of the scan -/

/-- `c == ':' && body[i + 1]`: the byte behind is read only behind a colon. -/
def behindColon (body : Pointer) (i : ℕ) (c : UInt8) : Except Halt UInt8 :=
  if c = 0x3A then body (i + 1) else .ok 0

/-- The loop of `parseMcSenderName` from offset `i` on, over the bytes it reads: what it
leaves in `nameOut[cap]`, and the offset it returns a pointer to. -/
def scanFrom (body : Pointer) (cap : ℕ) : ℕ → ℕ → Except Halt (Option (List UInt8 × ℕ))
  | 0, _ => .ok none
  | left + 1, i => do
      let c ← body i
      if c = 0 then .ok none
      else do
        let next ← behindColon body i c
        if c = 0x3A ∧ next = 0x20 then
          if i = 0 then .ok none
          else do
            let name ← readRange body 0 i
            let nameOut ← intoCString cap name
            .ok (some (nameOut, i + 2))
        else if i = 0 ∧ c = 0x20 then .ok none
        else if c < 0x20 ∨ 0x7E < c then .ok none
        else scanFrom body cap left (i + 1)

/-- `parseMcSenderName(body, nameOut, cap)`. -/
def parseAt (body : Pointer) (cap : ℕ) : Except Halt (Option (List UInt8 × ℕ)) :=
  if cap < 2 then .ok none
  else scanFrom body cap (min (cap - 1) BRIDGE_MC_NAME_MAX) 0

/-- A body without a NUL, and its terminator. -/
def terminated (body : List UInt8) : Pointer := Pointer.ofList (body ++ [0])

theorem terminated_at (before : List UInt8) (c : UInt8) (rest : List UInt8) :
    terminated (before ++ c :: rest) before.length = .ok c := by
  rw [terminated, List.append_assoc]
  exact ofList_append_cons before c (rest ++ [0])

theorem terminated_end (body : List UInt8) : terminated body body.length = .ok 0 :=
  ofList_append_cons body 0 []

/-- The byte behind the first of `c :: rest` is the next one, or the terminator. -/
theorem terminated_next (before : List UInt8) (c : UInt8) (rest : List UInt8) :
    terminated (before ++ c :: rest) (before.length + 1) = .ok (rest.head?.getD 0) := by
  cases rest with
  | nil => simpa using terminated_end (before ++ [c])
  | cons next rest => simpa using terminated_at (before ++ [c]) next rest

/-- What the second read of a turn is compared with says whether the separator is here. -/
theorem next_read (before : List UInt8) (c : UInt8) (rest : List UInt8) :
    ∃ next, behindColon (terminated (before ++ c :: rest)) before.length c = .ok next ∧
      (c = 0x3A ∧ next = 0x20 ↔ c = 0x3A ∧ rest.head? = some 0x20) := by
  rw [behindColon]
  by_cases hc : c = 0x3A
  · rw [if_pos hc]
    refine ⟨_, terminated_next before c rest, and_congr_right fun _ => ?_⟩
    cases rest with
    | nil => simp
    | cons next rest => simp
  · exact ⟨0, if_neg hc, by simp [hc]⟩

/-- The scan over memory is the scan over the bytes: it never reads behind the terminator,
and the name fits the buffer. -/
theorem scanFrom_terminated {cap left : ℕ} (before rest : List UInt8)
    (hcap : before.length + left ≤ cap) (hrest : 0 ∉ rest) :
    scanFrom (terminated (before ++ rest)) cap left before.length =
      .ok ((scanName (before.length = 0) left rest).map fun (name, _) =>
        (before ++ name, before.length + name.length + 2)) := by
  induction left generalizing before rest with
  | zero => rw [scanFrom, scanName, Option.map_none]
  | succ left ih =>
      cases rest with
      | nil =>
          rw [scanFrom, List.append_nil, terminated_end]
          rfl
      | cons c rest =>
          obtain ⟨hzero, hrest⟩ := not_or.mp (mt List.mem_cons.mpr hrest)
          obtain ⟨next, hnext, hseparator⟩ := next_read before c rest
          rw [scanFrom, terminated_at]
          simp only [bind, Except.bind, Ne.symm hzero, if_false, hnext]
          by_cases hcolon : c = 0x3A ∧ rest.head? = some 0x20
          · rw [if_pos (hseparator.mpr hcolon)]
            obtain ⟨rfl, hhead⟩ := hcolon
            obtain ⟨after, rfl⟩ := List.head?_eq_some_iff.mp hhead
            rw [show (0x3A : UInt8) :: 0x20 :: after = separator ++ after from rfl,
              scanName_colon]
            by_cases hfirst : before.length = 0
            · simp [hfirst]
            · have hname : readRange (terminated (before ++ (separator ++ after))) 0
                  before.length = .ok before := by
                rw [terminated, readRange_ofList _ _ (by simp), List.drop_zero,
                  List.append_assoc, List.take_left]
              have hfits : intoCString cap before = .ok before :=
                if_pos (by omega)
              simp [hfirst, hname, hfits]
          · rw [if_neg (mt hseparator.mp hcolon), scanName_cons _ _ hcolon]
            by_cases hspace : before.length = 0 ∧ c = 0x20
            · rw [if_pos hspace, if_neg fun hplain => hplain.2 (by simpa using hspace)]
              rfl
            rw [if_neg hspace]
            by_cases hprintable : Printable c
            · have hrec := ih (before ++ [c]) rest (by simp; omega) hrest
              rw [List.append_assoc, List.length_append, List.length_singleton] at hrec
              rw [if_neg (mt not_printable.mpr (not_not.mpr hprintable)),
                if_pos ⟨hprintable, by simpa using hspace⟩]
              refine hrec.trans (congrArg Except.ok ?_)
              rw [Option.map_map]
              simp [Function.comp_def, Nat.add_assoc, Nat.add_comm 1]
            · rw [if_pos (not_printable.mp hprintable), if_neg fun hplain => hprintable hplain.1]
              rfl

/-- The parser over memory: it never reads behind the terminator. -/
theorem parseAt_terminated (body : List UInt8) (hbody : 0 ∉ body) (cap : ℕ) :
    parseAt (terminated body) cap =
      .ok ((parseMcSenderName body cap).map fun (name, _) => (name, name.length + 2)) := by
  rw [parseAt, parseMcSenderName]
  by_cases hcap : cap < 2
  · rw [if_pos hcap, Nat.sub_eq_zero_of_le (by omega), Nat.zero_min, scanName]
    rfl
  · rw [if_neg hcap]
    simpa using @scanFrom_terminated cap (min (cap - 1) BRIDGE_MC_NAME_MAX) [] body
      (by simp) hbody

/-! ## What the parser finds -/

/-- The parser takes a name and its text apart, and refuses a body without a name. -/
structure ParsesNames (body : List UInt8) : Prop where
  named : ∀ (sender : SenderName) (text : List UInt8), body = sender.body text →
    parseMcSenderName body (MAX_LONG_NAME + 1) = some (sender.name, text) ∧
      parseAt (terminated body) (MAX_LONG_NAME + 1) =
        .ok (some (sender.name, sender.name.length + 2))
  unnamed : ¬ Prefixed body →
    parseMcSenderName body (MAX_LONG_NAME + 1) = none ∧
      parseAt (terminated body) (MAX_LONG_NAME + 1) = .ok none

/-- The bound of the scan, not the buffer, ends it. -/
theorem parseMcSenderName_eq_some {body name text : List UInt8} :
    parseMcSenderName body (MAX_LONG_NAME + 1) = some (name, text) ↔
      name.length < BRIDGE_MC_NAME_MAX ∧ body = name ++ separator ++ text ∧ Plain true name :=
  scanName_eq_some

/-- A name that is found is one. -/
def Plain.sender {name : List UInt8} (hplain : Plain true name)
    (hlength : name.length < BRIDGE_MC_NAME_MAX) : SenderName where
  name := name
  pos := List.length_pos_of_ne_nil (hplain.begins rfl).1
  le := hlength.le
  printable := hplain.printable
  noSpace := (hplain.begins rfl).2
  noSeparator := hplain.noSeparator

theorem parse_unnamed {body : List UInt8} (hunnamed : ¬ Prefixed body) :
    parseMcSenderName body (MAX_LONG_NAME + 1) = none := by
  rw [Option.eq_none_iff_forall_ne_some]
  rintro ⟨name, text⟩ hfound
  obtain ⟨hlength, hbody, hplain⟩ := parseMcSenderName_eq_some.mp hfound
  exact hunnamed ⟨hplain.sender hlength, text, hbody⟩

/-- The parser does what it is for unless the name has the longest length that is allowed. -/
theorem parsesNames_iff (body : List UInt8) (hbody : 0 ∉ body) :
    ParsesNames body ↔ ∀ (sender : SenderName) (text : List UInt8),
      body = sender.body text → sender.name.length < BRIDGE_MC_NAME_MAX := by
  constructor
  · intro hparses sender text hsender
    exact (parseMcSenderName_eq_some.mp (hparses.named sender text hsender).1).1
  · intro hshort
    refine ⟨fun sender text hsender => ?_, fun hunnamed => ?_⟩
    · have hfound := parseMcSenderName_eq_some.mpr
        ⟨hshort sender text hsender, hsender, sender.plain⟩
      rw [parseAt_terminated body hbody, hfound]
      exact ⟨rfl, rfl⟩
    · rw [parseAt_terminated body hbody, parse_unnamed hunnamed]
      exact ⟨rfl, rfl⟩

/-- `Bob`. -/
def bob : SenderName where
  name := [0x42, 0x6F, 0x62]
  pos := by decide
  le := by decide
  printable := by simp [Printable]
  noSpace := by decide
  noSeparator := by decide

theorem bob_parsed : ParsesNames (bob.body (ascii "hi")) := by
  refine (parsesNames_iff _ (by decide)).mpr fun sender text hsender => ?_
  have hlength := congrArg List.length hsender
  simp only [SenderName.body, List.length_append] at hlength
  calc sender.name.length ≤ (bob.body (ascii "hi")).length := by
        rw [SenderName.body, List.length_append, List.length_append]; omega
    _ < BRIDGE_MC_NAME_MAX := by decide

/-- A name of the longest length. -/
def longest : SenderName where
  name := List.replicate 32 0x41
  pos := by decide
  le := by decide
  printable c hc := by
    rw [List.eq_of_mem_replicate hc]
    decide
  noSpace := by decide
  noSeparator := by decide

/-- The colon behind it is never looked at. -/
theorem longest_not_parsed : ¬ ParsesNames (longest.body (ascii "hi")) := by
  intro hparses
  have hshort := (parseMcSenderName_eq_some.mp (hparses.named longest (ascii "hi") rfl).1).1
  exact absurd hshort (by decide)

end LoraBridge.SenderNames
