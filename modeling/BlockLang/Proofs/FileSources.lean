import BlockLang.Proofs.Walk
import BlockLang.Run
import Mathlib

/-!
# Sources in files

A file is run like the text in it. The bytes of the file must be the UTF-8 encoding of some
characters, for which the encoder of the standard library is the measure, and line ends are
made the same before anything else is done with the text.

The decoder takes one byte after another. Within a character, what it waits for is said by
`Pending.Awaits`: bytes within bounds, and the value of the character that they complete. The
bounds of the second byte are such that exactly the scalar values are completed, each in its
shortest form.
-/

namespace BlockLang

namespace Text

namespace Utf8

variable {p : Pending} {b : UInt8} {bytes more rest : List UInt8} {read text : List Char}
  {value position : Nat}

/-- The bytes of the character with a value, as numbers. -/
def units (value : Nat) : List Nat :=
  if value < 0x80 then [value]
  else if value < 0x800 then [0xc0 + value / 64, 0x80 + value % 64]
  else if value < 0x10000 then
    [0xe0 + value / 4096, 0x80 + value / 64 % 64, 0x80 + value % 64]
  else
    [0xf0 + value / 262144, 0x80 + value / 4096 % 64, 0x80 + value / 64 % 64, 0x80 + value % 64]

theorem map_toNat_utf8EncodeChar (c : Char) :
    (String.utf8EncodeChar c).map UInt8.toNat = units c.toNat := by
  have valid : c.toNat < 0xd800 ∨ 0xdfff < c.toNat ∧ c.toNat < 0x110000 := c.valid
  have code : c.val.toNat = c.toNat := rfl
  simp only [String.utf8EncodeChar, units, code]
  split_ifs <;> simp <;> omega

theorem utf8EncodeChar_ofNat (valid : value.isValidChar)
    (h : bytes.map UInt8.toNat = units value) :
    String.utf8EncodeChar (Char.ofNat value) = bytes := by
  have encoded := map_toNat_utf8EncodeChar (Char.ofNat value)
  rw [Char.toNat_ofNat, if_pos valid, ← h] at encoded
  exact (List.map_inj_right fun _ _ => UInt8.toNat_inj.mp).mp encoded

namespace Pending

/-- The bytes complete the pending character, which then has the given value. -/
def Awaits (p : Pending) : List UInt8 → Nat → Prop
  | [], value => p.missing = 0 ∧ value = p.bits
  | b :: rest, value =>
    p.missing ≠ 0 ∧ (p.least ≤ b ∧ b ≤ p.greatest) ∧ (p.push b).Awaits rest value

theorem awaits_of_complete (complete : p.missing = 0) :
    p.Awaits more value ↔ more = [] ∧ value = p.bits := by
  cases more with
  | nil => simp [Awaits, complete]
  | cons => simp [Awaits, complete]

theorem awaits_of_incomplete (incomplete : p.missing ≠ 0) :
    p.Awaits more value ↔ ∃ b rest, more = b :: rest ∧ (p.least ≤ b ∧ b ≤ p.greatest) ∧
      (p.push b).Awaits rest value := by
  cases more with
  | nil => simp [Awaits, incomplete]
  | cons b rest => simp [Awaits, incomplete]

/-- Bytes that complete a character are read as that character. -/
theorem Awaits.decodeFrom_append (h : p.Awaits more value) (incomplete : p.missing ≠ 0) :
    decodeFrom position read (some p) (more ++ rest) =
      decodeFrom (position + more.length) (Char.ofNat value :: read) none rest := by
  induction more generalizing p position with
  | nil => exact absurd h.1 incomplete
  | cons b more ih =>
      obtain ⟨_, within, others⟩ := h
      rw [List.cons_append, decodeFrom, if_pos (by simp [within]), List.length_cons]
      by_cases last : p.missing ≤ 1
      · have complete : (p.push b).missing = 0 := Nat.sub_eq_zero_of_le last
        obtain ⟨rfl, isValue⟩ := (awaits_of_complete complete).mp others
        rw [if_pos last, isValue]
        rfl
      · rw [if_neg last, ih others (Nat.sub_ne_zero_of_lt (by omega)), Nat.add_assoc,
          Nat.add_comm 1]

/-- If the bytes after a pending character are read, the first of them complete it. -/
theorem exists_awaits (incomplete : p.missing ≠ 0)
    (h : decodeFrom position read (some p) bytes = .ok text) :
    ∃ more rest value, bytes = more ++ rest ∧ p.Awaits more value := by
  induction bytes generalizing p position with
  | nil => cases h
  | cons b bytes ih =>
      rw [decodeFrom] at h
      split_ifs at h with within last
      · simp only [Bool.and_eq_true, decide_eq_true_eq] at within
        exact ⟨[b], bytes, _, rfl, incomplete, within, Nat.sub_eq_zero_of_le last, rfl⟩
      · simp only [Bool.and_eq_true, decide_eq_true_eq] at within
        obtain ⟨more, rest, value, rfl, awaits⟩ := ih (Nat.sub_ne_zero_of_lt (by omega)) h
        exact ⟨b :: more, rest, value, rfl, incomplete, within, awaits⟩

theorem start?_missing (h : start? position b = some p) : p.missing ≠ 0 := by
  unfold start? at h
  split_ifs at h <;> cases h <;> exact Nat.succ_ne_zero _

/-- What completes a character of two bytes. -/
theorem exists_awaits_two (lead : 0xc2 ≤ b.toNat ∧ b.toNat ≤ 0xdf) :
    (∃ p, start? position b = some p ∧ p.Awaits more value) ↔
      ∃ x, more = [x] ∧ (0x80 ≤ x.toNat ∧ x.toNat ≤ 0xbf) ∧
        value = (b.toNat - 0xc0) * 64 + (x.toNat - 0x80) := by
  simp [start?, lead, awaits_of_incomplete, awaits_of_complete, push, UInt8.le_iff_toNat_le]

/-- What completes a character of three bytes. -/
theorem exists_awaits_three (lead : 0xe0 ≤ b.toNat ∧ b.toNat ≤ 0xef) :
    (∃ p, start? position b = some p ∧ p.Awaits more value) ↔
      ∃ x y, more = [x, y] ∧
        ((if b.toNat = 0xe0 then 0xa0 else 0x80) ≤ x.toNat ∧
          x.toNat ≤ if b.toNat = 0xed then 0x9f else 0xbf) ∧
        (0x80 ≤ y.toNat ∧ y.toNat ≤ 0xbf) ∧
        value = ((b.toNat - 0xe0) * 64 + (x.toNat - 0x80)) * 64 + (y.toNat - 0x80) := by
  have longer : ¬ b.toNat ≤ 0xdf := by omega
  simp [start?, longer, lead, awaits_of_incomplete, awaits_of_complete, push,
    UInt8.le_iff_toNat_le, apply_ite UInt8.toNat, ← UInt8.toNat_inj]

/-- What completes a character of four bytes. -/
theorem exists_awaits_four (lead : 0xf0 ≤ b.toNat ∧ b.toNat ≤ 0xf4) :
    (∃ p, start? position b = some p ∧ p.Awaits more value) ↔
      ∃ x y z, more = [x, y, z] ∧
        ((if b.toNat = 0xf0 then 0x90 else 0x80) ≤ x.toNat ∧
          x.toNat ≤ if b.toNat = 0xf4 then 0x8f else 0xbf) ∧
        (0x80 ≤ y.toNat ∧ y.toNat ≤ 0xbf) ∧ (0x80 ≤ z.toNat ∧ z.toNat ≤ 0xbf) ∧
        value = (((b.toNat - 0xf0) * 64 + (x.toNat - 0x80)) * 64 + (y.toNat - 0x80)) * 64 +
          (z.toNat - 0x80) := by
  have longer : ¬ b.toNat ≤ 0xdf ∧ ¬ b.toNat ≤ 0xef := by omega
  simp [start?, longer, lead, awaits_of_incomplete, awaits_of_complete, push,
    UInt8.le_iff_toNat_le, apply_ite UInt8.toNat, ← UInt8.toNat_inj]

theorem start?_eq_none (other : b.toNat < 0xc2 ∨ 0xf4 < b.toNat) : start? position b = none := by
  simp only [start?, UInt8.le_iff_toNat_le, Bool.and_eq_true, decide_eq_true_eq]
  rw [if_neg (by simp; omega), if_neg (by simp; omega), if_neg (by simp; omega)]

theorem not_lt_of_start? (h : start? position b = some p) : ¬ b < 0x80 := by
  intro small
  have ascii : b.toNat < 0x80 := UInt8.lt_iff_toNat_lt.mp small
  rw [start?_eq_none (.inl (by omega))] at h
  cases h

/-- Only scalar values are completed, by bytes of their shortest form. -/
theorem Awaits.units_eq (started : start? position b = some p) (h : p.Awaits more value) :
    value.isValidChar ∧ (b :: more).map UInt8.toNat = units value := by
  have both : ∃ p, start? position b = some p ∧ p.Awaits more value := ⟨p, started, h⟩
  unfold Nat.isValidChar units
  by_cases two : 0xc2 ≤ b.toNat ∧ b.toNat ≤ 0xdf
  · obtain ⟨x, rfl, within, isValue⟩ := (exists_awaits_two two).mp both
    rw [if_neg (by omega), if_pos (by omega)]
    refine ⟨by omega, ?_⟩
    simp only [List.map_cons, List.map_nil, List.cons.injEq, and_true]
    omega
  by_cases three : 0xe0 ≤ b.toNat ∧ b.toNat ≤ 0xef
  · obtain ⟨x, y, rfl, within, within', isValue⟩ := (exists_awaits_three three).mp both
    -- The second byte rules out longer forms after 0xe0 and surrogates after 0xed.
    have second : (b.toNat = 0xe0 → 0xa0 ≤ x.toNat) ∧ 0x80 ≤ x.toNat ∧
      (b.toNat = 0xed → x.toNat ≤ 0x9f) ∧ x.toNat ≤ 0xbf := by grind
    rw [if_neg (by omega), if_neg (by omega), if_pos (by omega)]
    refine ⟨by omega, ?_⟩
    simp only [List.map_cons, List.map_nil, List.cons.injEq, and_true]
    omega
  by_cases four : 0xf0 ≤ b.toNat ∧ b.toNat ≤ 0xf4
  · obtain ⟨x, y, z, rfl, within, within', within'', isValue⟩ := (exists_awaits_four four).mp both
    -- It rules out longer forms after 0xf0 and values beyond the last one after 0xf4.
    have second : (b.toNat = 0xf0 → 0x90 ≤ x.toNat) ∧ 0x80 ≤ x.toNat ∧
      (b.toNat = 0xf4 → x.toNat ≤ 0x8f) ∧ x.toNat ≤ 0xbf := by grind
    rw [if_neg (by omega), if_neg (by omega), if_neg (by omega)]
    refine ⟨by omega, ?_⟩
    simp only [List.map_cons, List.map_nil, List.cons.injEq, and_true]
    omega
  · rw [start?_eq_none (by omega)] at started
    cases started

/-- The bytes of a scalar value complete it. -/
theorem exists_awaits_of_units (valid : value.isValidChar) (large : 0x80 ≤ value)
    (h : (b :: more).map UInt8.toNat = units value) :
    ∃ p, start? position b = some p ∧ p.Awaits more value := by
  unfold Nat.isValidChar at valid
  unfold units at h
  split_ifs at h with one two three
  · omega
  · simp only [List.map_cons, List.cons.injEq, List.map_eq_cons_iff, List.map_eq_nil_iff] at h
    obtain ⟨lead, x, _, rfl, second, rfl⟩ := h
    exact (exists_awaits_two (by omega)).mpr ⟨x, rfl, by omega, by omega⟩
  · simp only [List.map_cons, List.cons.injEq, List.map_eq_cons_iff, List.map_eq_nil_iff] at h
    obtain ⟨lead, x, _, rfl, second, y, _, rfl, third, rfl⟩ := h
    refine (exists_awaits_three (by omega)).mpr ⟨x, y, rfl, ⟨?_, ?_⟩, by omega, by omega⟩
    · split <;> omega
    · split <;> omega
  · simp only [List.map_cons, List.cons.injEq, List.map_eq_cons_iff, List.map_eq_nil_iff] at h
    obtain ⟨lead, x, _, rfl, second, y, _, rfl, third, z, _, rfl, fourth, rfl⟩ := h
    refine (exists_awaits_four (by omega)).mpr ⟨x, y, z, rfl, ⟨?_, ?_⟩, by omega, by omega,
      by omega⟩
    · split <;> omega
    · split <;> omega

end Pending

/-- The bytes of a character are read as that character. -/
theorem decodeFrom_utf8EncodeChar (c : Char) (rest : List UInt8) :
    decodeFrom position read none (String.utf8EncodeChar c ++ rest) =
      decodeFrom (position + (String.utf8EncodeChar c).length) (c :: read) none rest := by
  have encoded := map_toNat_utf8EncodeChar c
  obtain ⟨b, more, isCons⟩ : ∃ b more, String.utf8EncodeChar c = b :: more :=
    List.exists_cons_of_ne_nil String.utf8EncodeChar_ne_nil
  rw [isCons] at encoded ⊢
  by_cases ascii : c.toNat < 0x80
  · simp only [units, if_pos ascii, List.map_cons, List.cons.injEq, List.map_eq_nil_iff] at encoded
    obtain ⟨lead, rfl⟩ := encoded
    have small : b < 0x80 := UInt8.lt_iff_toNat_lt.mpr (by simpa [lead] using ascii)
    rw [List.singleton_append, decodeFrom, if_pos small, lead, Char.ofNat_toNat]
    rfl
  · have valid : c.toNat.isValidChar := c.valid
    obtain ⟨p, started, awaits⟩ :=
      Pending.exists_awaits_of_units valid (Nat.le_of_not_lt ascii) encoded
    rw [List.cons_append, decodeFrom, if_neg (Pending.not_lt_of_start? started), started]
    simp only
    rw [awaits.decodeFrom_append (Pending.start?_missing started), Char.ofNat_toNat,
      List.length_cons, Nat.add_assoc, Nat.add_comm 1]

/-- Bytes that are read begin with those of a character. -/
theorem exists_utf8EncodeChar (h : decodeFrom position read none (b :: bytes) = .ok text) :
    ∃ c rest, b :: bytes = String.utf8EncodeChar c ++ rest := by
  rw [decodeFrom] at h
  split at h
  · rename_i small
    have ascii : b.toNat < 0x80 := UInt8.lt_iff_toNat_lt.mp small
    have encoded : String.utf8EncodeChar (Char.ofNat b.toNat) = [b] :=
      utf8EncodeChar_ofNat (.inl (by omega)) (by simp [units, ascii])
    exact ⟨_, bytes, by rw [encoded, List.singleton_append]⟩
  · split at h
    · cases h
    · rename_i p started
      obtain ⟨more, rest, value, rfl, awaits⟩ :=
        Pending.exists_awaits (Pending.start?_missing started) h
      obtain ⟨valid, same⟩ := awaits.units_eq started
      exact ⟨_, rest, by rw [utf8EncodeChar_ofNat valid same, List.cons_append]⟩

/-- The bytes that are read are those that encode characters, and they are read as these. -/
theorem decodeFrom_eq_ok_iff :
    decodeFrom position read none bytes = .ok text ↔
      ∃ more : List Char, bytes = more.flatMap String.utf8EncodeChar ∧
        text = read.reverse ++ more := by
  constructor
  · intro h
    -- A character may take several bytes, so the induction is on how many are left.
    induction length : bytes.length using Nat.strong_induction_on
      generalizing bytes position read with
    | _ size ih =>
      cases bytes with
      | nil =>
          cases h
          exact ⟨[], rfl, (List.append_nil _).symm⟩
      | cons b bytes =>
          obtain ⟨c, rest, same⟩ := exists_utf8EncodeChar h
          rw [same, decodeFrom_utf8EncodeChar] at h
          have shorter : rest.length < size := by
            have lengths := congrArg List.length same
            have nonempty : 0 < (String.utf8EncodeChar c).length :=
              List.length_pos_iff.mpr String.utf8EncodeChar_ne_nil
            rw [List.length_append] at lengths
            omega
          obtain ⟨more, rfl, rfl⟩ := ih _ shorter h rfl
          exact ⟨c :: more, same, by simp⟩
  · rintro ⟨more, rfl, rfl⟩
    induction more generalizing position read with
    | nil =>
        rw [List.flatMap_nil, decodeFrom, List.append_nil]
    | cons c more ih =>
        rw [List.flatMap_cons, decodeFrom_utf8EncodeChar, ih]
        simp

/-- Decoding is the inverse of encoding, and fails on bytes that encode nothing. -/
theorem decode_eq_ok_iff :
    decode bytes = .ok text ↔ bytes = text.flatMap String.utf8EncodeChar := by
  rw [decode, decodeFrom_eq_ok_iff]
  simp

end Utf8

/-- The text with one line feed for each carriage return that a line feed follows. -/
def joinPairs : List Char → List Char
  | [] => []
  | '\r' :: '\n' :: rest => '\n' :: joinPairs rest
  | c :: rest => c :: joinPairs rest

/-- The text with a line feed for each carriage return, together with the line feed after it
if there is one: the pairs are replaced first, then the carriage returns that are left. -/
def withLineFeeds (text : List Char) : List Char :=
  (joinPairs text).map fun c => if c = '\r' then '\n' else c

/-- Both replacements are made in one go. -/
theorem unifyLineEnds_eq (text : List Char) : unifyLineEnds text = withLineFeeds text := by
  unfold withLineFeeds
  fun_induction joinPairs text with
  | case1 => rfl
  | case2 rest ih => rw [unifyLineEnds, ih, List.map_cons, if_neg (by decide)]
  | case3 c rest single ih =>
      by_cases isReturn : c = '\r'
      · subst isReturn
        rw [unifyLineEnds, ih, List.map_cons, if_pos rfl]
        exact fun later => single later rfl
      · rw [unifyLineEnds, ih, List.map_cons, if_neg isReturn]
        · exact single
        · exact isReturn

end Text

/-- No fault of a program is reported as one of the encoding. -/
theorem Fault.label_ne (f : Fault) : f.label ≠ "UnicodeDecodeError" := by
  cases f <;> simp [label, ScopeStack.DeclareError.label]

namespace Run

variable {files : Files} {settings : Settings} {sink : Sink} {console console' : Console}
  {code path : String} {program : Program} {bytes : List UInt8} {e : RunError}

theorem writePrinted_ne_error (output : String) :
    writePrinted sink output console ≠ .error e console' := by
  cases sink <;> nofun

theorem label_of_execute (h : execute sink program console = .error e console') :
    e.label ≠ "UnicodeDecodeError" := by
  unfold execute at h
  cases executed : Exec.program program .initial with
  | ok _ executor =>
      rw [executed, Step.bind_eq_error_iff] at h
      rcases h with failed | ⟨_, _, _, failed⟩
      · exact absurd failed (writePrinted_ne_error _)
      · cases failed
  | error fault executor =>
      rw [executed, Step.bind_eq_error_iff] at h
      rcases h with failed | ⟨_, _, _, failed⟩
      · exact absurd failed (writePrinted_ne_error _)
      · cases failed
        exact fault.label_ne

theorem label_of_checkAndExecute
    (h : checkAndExecute sink code program console = .error e console') :
    e.label ≠ "UnicodeDecodeError" := by
  unfold checkAndExecute at h
  cases checked : Check.program program .initial with
  | error fault _ =>
      rw [checked] at h
      cases h
      exact fault.label_ne
  | ok _ checker =>
      rw [checked] at h
      cases refused : checker.hasErrors with
      | true =>
          simp only [refused, if_true] at h
          cases h
      | false =>
          simp only [refused] at h
          exact label_of_execute h

/-- What fails after the source was read is not its encoding. -/
theorem label_of_text (h : text settings code console = .error e console') :
    e.label ≠ "UnicodeDecodeError" := by
  obtain ⟨echo, sink⟩ := settings
  unfold text at h
  cases parsed : Program.parse code with
  | error fault =>
      rw [parsed] at h
      have malformed : e = .malformed fault := by
        cases echo with
        | false => exact (EStateM.Result.error.inj h).1.symm
        | true => exact (EStateM.Result.error.inj h).1.symm
      simp [malformed, RunError.label]
  | ok program =>
      rw [parsed] at h
      cases echo with
      | false => exact label_of_checkAndExecute h
      | true => exact label_of_checkAndExecute h

/-- A text is run as it is unless it is the name of a file. -/
theorem source_text (notFile : ∀ other, files.find code ≠ .ok (.file other)) :
    source files settings (.text code) = text settings code := by
  have asItIs : read files (.text code) = .ok code := by
    rw [read]
    split
    · rename_i other found
      exact absurd found (notFile other)
    · rfl
  rw [source, asItIs]

/-- A file that encodes a text is run as that text, with line feeds for all its line ends. -/
theorem source_file (stored : files.find (Path.tidy path) = .ok (.file bytes))
    {content : List Char} (encoded : bytes = content.flatMap String.utf8EncodeChar) :
    source files settings (.file path) =
      text settings (String.ofList (Text.withLineFeeds content)) := by
  have decoded := Text.Utf8.decode_eq_ok_iff.mpr encoded
  simp only [source, read, stored, decodeFile, decoded, Text.unifyLineEnds_eq]

/-- A file that encodes no text is not run. -/
theorem exists_source_file_eq_throw (settings : Settings)
    (stored : files.find (Path.tidy path) = .ok (.file bytes))
    (encodes : ¬ ∃ content : List Char, bytes = content.flatMap String.utf8EncodeChar) :
    ∃ flaw, source files settings (.file path) = throw (.encoding flaw) := by
  cases decoded : Text.Utf8.decode bytes with
  | ok content => exact absurd ⟨content, Text.Utf8.decode_eq_ok_iff.mp decoded⟩ encodes
  | error flaw => exact ⟨flaw, by simp only [source, read, stored, decodeFile, decoded]⟩

end Run

/-- Running a file agrees with running its text. Let a path lead to a file with some bytes.
Running the file fails with a fault of the encoding if and only if the bytes are the UTF-8
encoding of no text, and nothing is written then. If they are the encoding of a text, then
running the file and running this text with line feeds for its line ends come to the same
result or failure and write the same, unless the text is itself the name of a file. -/
theorem file_runs_like_its_text {files : Files} {path : String} {bytes : List UInt8}
    (stored : files.find (Path.tidy path) = .ok (.file bytes)) (settings : Settings)
    (console : Console) :
    ((∃ e console', Run.source files settings (.file path) console = .error e console' ∧
        e.label = "UnicodeDecodeError") ↔
      ¬ ∃ content : List Char, bytes = content.flatMap String.utf8EncodeChar) ∧
    (∀ e console', Run.source files settings (.file path) console = .error e console' →
      e.label = "UnicodeDecodeError" → console' = console) ∧
    ∀ content : List Char, bytes = content.flatMap String.utf8EncodeChar →
      (∀ other, files.find (String.ofList (Text.withLineFeeds content)) ≠ .ok (.file other)) →
      Run.source files settings (.file path) console =
        Run.source files settings (.text (String.ofList (Text.withLineFeeds content))) console := by
  by_cases encodes : ∃ content : List Char, bytes = content.flatMap String.utf8EncodeChar
  · have sound : ∀ e console', Run.source files settings (.file path) console =
        .error e console' → e.label ≠ "UnicodeDecodeError" := by
      obtain ⟨content, encoded⟩ := encodes
      intro e console' failed
      rw [Run.source_file stored encoded] at failed
      exact Run.label_of_text failed
    refine ⟨⟨?_, fun none => absurd encodes none⟩, ?_, ?_⟩
    · rintro ⟨e, console', failed, label⟩
      exact absurd label (sound e console' failed)
    · intro e console' failed label
      exact absurd label (sound e console' failed)
    · intro content encoded notFile
      rw [Run.source_file stored encoded, Run.source_text notFile]
  · obtain ⟨flaw, thrown⟩ := Run.exists_source_file_eq_throw settings stored encodes
    rw [thrown]
    refine ⟨⟨fun _ => encodes, fun _ => ⟨_, _, rfl, rfl⟩⟩, ?_, ?_⟩
    · rintro e console' ⟨⟩ _
      rfl
    · intro content encoded
      exact absurd ⟨content, encoded⟩ encodes

/-- A file with a source text in which lines end in two ways and a digit is of another script,
and a file that begins as a surrogate would. -/
def Files.mixed : Files where
  find path :=
    if path = "src/a" then
      .ok (.file [0x70, 0x72, 0x69, 0x6e, 0x74, 0x28, 0xd9, 0xa3, 0x29, 0x3b, 0xd, 0xa, 0xd])
    else if path = "b" then .ok (.file [0xed, 0xa0, 0x80])
    else .error .missing

theorem file_runs_like_its_text_mixed :
    Run.source .mixed ⟨true, .stream⟩ (.file "./src//a") .empty =
      Run.source .mixed ⟨true, .stream⟩ (.text "print(\u0663);\n\n") .empty ∧
    ∃ e console, Run.source .mixed ⟨true, .stream⟩ (.file "b") .empty = .error e console ∧
      e.label = "UnicodeDecodeError" := by
  have first : Path.tidy "./src//a" = "src/a" := by cbv
  have second : Path.tidy "b" = "b" := by cbv
  have stored : Files.mixed.find (Path.tidy "./src//a") = .ok (.file
      [0x70, 0x72, 0x69, 0x6e, 0x74, 0x28, 0xd9, 0xa3, 0x29, 0x3b, 0xd, 0xa, 0xd]) := by
    simp [first, Files.mixed]
  have flawed : Files.mixed.find (Path.tidy "b") = .ok (.file [0xed, 0xa0, 0x80]) := by
    simp [second, Files.mixed]
  have unnamed : Files.mixed.find "print(\u0663);\n\n" = .error .missing := by
    simp [Files.mixed]
  refine ⟨(file_runs_like_its_text stored _ _).2.2 "print(\u0663);\r\n\r".toList rfl ?_,
    (file_runs_like_its_text flawed _ _).1.mpr ?_⟩
  · intro other found
    cases unnamed.symm.trans found
  · rintro ⟨content, same⟩
    have decoded := Text.Utf8.decode_eq_ok_iff.mpr same
    cases decoded

end BlockLang
