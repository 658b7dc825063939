/-
What the configuration reader returns.  A physical line that ends with a
newline is read as it should be, whatever comes before it; only at the end of
the file the character seen last is taken once more.  That is harmless behind a
dropped line, in a comment and behind a blank, and wrong everywhere else.
-/
import GreylistServer.ConfigFileReader

namespace GreylistServer

namespace ConfigFileReader

/-- The state before the first character of a line, with the last value of the
character variable. -/
def clean (c : Char) : Scan :=
  { c := c }

/-- The state after some characters without a newline. -/
def scan (s : Scan) (text : Str) : Scan :=
  text.foldl (fun s c => (step s c).2) s

/-- The characters a line is made of, before and after its `=`. -/
def raw : Bool → Str → Str
  | _, [] => []
  | true, c :: rest =>
      if c = '#' then []
      else if c = '=' then c :: raw false rest
      else if c = ' ' then raw true rest
      else c.toLower :: raw true rest
  | false, c :: rest =>
      if c = '#' then [] else c :: raw false rest

/-- The counter is the length of the string in 32 bits. -/
def Counted (s : Scan) : Prop :=
  s.cnt = s.str.length % 2 ^ 32

theorem rtrim_counted {line : Str} {cnt : Nat}
    (hcnt : cnt = line.length % 2 ^ 32) :
    (rtrim line cnt).2 = (rtrim line cnt).1.length % 2 ^ 32 := by
  have hle := (List.rdropWhile_prefix (· = ' ') line).length_le
  simp only [rtrim]
  omega

theorem step_counted {s : Scan} (hs : Counted s) (c : Char) :
    Counted (step s c).2 := by
  unfold step
  split
  · split
    · simp only
      split <;> exact rtrim_counted hs
    · exact hs
  · simp only
    generalize (if (s.bBegin && decide (c ≠ '=')) = true then c.toLower
      else c) = small
    split
    · exact hs
    · split
      · exact hs
      · split
        · split <;> exact hs
        · rw [Counted] at hs ⊢
          simp only [List.length_append, List.length_singleton]
          omega

theorem scan_counted {s : Scan} (hs : Counted s) (text : Str) :
    Counted (scan s text) := by
  induction text generalizing s with
  | nil => exact hs
  | cons c rest ih => exact ih (step_counted hs c)

/-- One character more. -/
def push (s : Scan) (c : Char) : Scan :=
  { s with c := c, str := s.str ++ [c], cnt := (s.cnt + 1) % 2 ^ 32 }

section

variable {s : Scan} {c : Char}

/-- In a comment every character but a newline is skipped. -/
theorem step_comment (hs : s.bComment = true) (hc : c ≠ '\n') :
    step s c = (.next, { s with c := c }) := by
  rw [step, if_pos hs, if_neg hc]

theorem step_hash (hs : s.bComment = false) :
    step s '#' = (.next, { s with c := '#', bComment := true }) := by
  cases hbegin : s.bBegin <;> simp [step, hs, hbegin]

theorem step_newline (hs : s.bComment = false) :
    step s '\n' = (if s.cnt > 0 then .leave else .next,
      { s with c := '\n' }) := by
  cases hbegin : s.bBegin <;> simp [step, hs, hbegin] <;> split <;> rfl

/-- Before the `=` blanks are skipped. -/
theorem step_blank (hs : s.bComment = false) (hbegin : s.bBegin = true) :
    step s ' ' = (.next, { s with c := ' ' }) := by
  simp [step, hs, hbegin]

theorem step_equals (hs : s.bComment = false) (hbegin : s.bBegin = true) :
    step s '=' = (.next, push { s with bBegin := false } '=') := by
  simp [step, hs, hbegin, push]

/-- Before the `=` the other characters are lowercased. -/
theorem step_name (hs : s.bComment = false) (hbegin : s.bBegin = true)
    (hc : c ≠ '\n' ∧ c ≠ '#' ∧ c ≠ ' ' ∧ c ≠ '=') :
    step s c = (.next, push s c.toLower) := by
  obtain ⟨hnewline, hhash, hblank, hequals⟩ := hc
  have hnewline' : c.toLower ≠ '\n' := fun heq =>
    hnewline ((toLower_eq_iff (by decide)).mp heq)
  have hhash' : c.toLower ≠ '#' := fun heq =>
    hhash ((toLower_eq_iff (by decide)).mp heq)
  have hblank' : c.toLower ≠ ' ' := fun heq =>
    hblank ((toLower_eq_iff (by decide)).mp heq)
  simp [step, hs, hbegin, hequals, hnewline', hhash', hblank', push]

/-- Behind the `=` every character is taken. -/
theorem step_value (hs : s.bComment = false) (hbegin : s.bBegin = false)
    (hc : c ≠ '\n' ∧ c ≠ '#') : step s c = (.next, push s c) := by
  simp [step, hs, hbegin, hc, push]

end

/-- What a character of a line that is no newline does outside a comment. -/
theorem step_cases {s : Scan} (hs : s.bComment = false) {c : Char}
    (hc : c ≠ '\n') :
    (c = '#' ∧ step s c = (.next, { s with c := '#', bComment := true })) ∨
    (s.bBegin = true ∧ c = ' ' ∧ step s c = (.next, { s with c := ' ' })) ∨
    (s.bBegin = true ∧ c = '=' ∧
      step s c = (.next, push { s with bBegin := false } '=')) ∨
    (s.bBegin = true ∧ (c ≠ '#' ∧ c ≠ ' ' ∧ c ≠ '=') ∧
      step s c = (.next, push s c.toLower)) ∨
    (s.bBegin = false ∧ c ≠ '#' ∧ step s c = (.next, push s c)) := by
  by_cases hhash : c = '#'
  · subst hhash
    exact Or.inl ⟨rfl, step_hash hs⟩
  · by_cases hbegin : s.bBegin = true
    · by_cases hblank : c = ' '
      · subst hblank
        exact Or.inr (Or.inl ⟨hbegin, rfl, step_blank hs hbegin⟩)
      · by_cases hequals : c = '='
        · subst hequals
          exact Or.inr (Or.inr (Or.inl
            ⟨hbegin, rfl, step_equals hs hbegin⟩))
        · exact Or.inr (Or.inr (Or.inr (Or.inl
            ⟨hbegin, ⟨hhash, hblank, hequals⟩,
              step_name hs hbegin ⟨hc, hhash, hblank, hequals⟩⟩)))
    · rw [Bool.not_eq_true] at hbegin
      exact Or.inr (Or.inr (Or.inr (Or.inr
        ⟨hbegin, hhash, step_value hs hbegin ⟨hc, hhash⟩⟩)))

theorem step_next (s : Scan) {c : Char} (hc : c ≠ '\n') :
    (step s c).1 = .next := by
  cases hs : s.bComment with
  | true => rw [step_comment hs hc]
  | false =>
      rcases step_cases hs hc with ⟨-, hstep⟩ | ⟨-, -, hstep⟩ |
        ⟨-, -, hstep⟩ | ⟨-, -, hstep⟩ | ⟨-, -, hstep⟩ <;> rw [hstep]

/-- A line is scanned up to its end. -/
theorem loop_append {line : Str} (hline : '\n' ∉ line) (s : Scan)
    (rest : Str) : loop s (line ++ rest) = loop (scan s line) rest := by
  induction line generalizing s with
  | nil => rfl
  | cons c line ih =>
      have hc : c ≠ '\n' := fun heq => hline (heq ▸ List.mem_cons_self)
      have htail := ih fun hmem => hline (List.mem_cons_of_mem c hmem)
      have hstep : step s c = (.next, (step s c).2) :=
        Prod.ext (step_next s hc) rfl
      rw [List.cons_append, loop, hstep]
      exact htail _

theorem scan_cons (s : Scan) (c : Char) (line : Str) :
    scan s (c :: line) = scan (step s c).2 line :=
  rfl

theorem scan_comment {s : Scan} (hs : s.bComment = true) {line : Str}
    (hline : '\n' ∉ line) :
    (scan s line).str = s.str ∧ (scan s line).bComment = true ∧
      (scan s line).bBegin = s.bBegin := by
  induction line generalizing s with
  | nil => exact ⟨rfl, hs, rfl⟩
  | cons c line ih =>
      have hc : c ≠ '\n' := fun heq => hline (heq ▸ List.mem_cons_self)
      have htail : '\n' ∉ line := fun hmem =>
        hline (List.mem_cons_of_mem c hmem)
      rw [scan_cons, step_comment hs hc]
      exact ih hs htail

/-- A line adds its own characters to the string. -/
theorem scan_text {s : Scan} (hs : s.bComment = false) {line : Str}
    (hline : '\n' ∉ line) :
    (scan s line).str = s.str ++ raw s.bBegin line ∧
      (scan s line).bComment = decide ('#' ∈ line) := by
  induction line generalizing s with
  | nil => simp [scan, raw, hs]
  | cons c line ih =>
      have hc : c ≠ '\n' := fun heq => hline (heq ▸ List.mem_cons_self)
      have htail : '\n' ∉ line := fun hmem =>
        hline (List.mem_cons_of_mem c hmem)
      rw [scan_cons]
      rcases step_cases hs hc with ⟨rfl, hstep⟩ | ⟨hbegin, rfl, hstep⟩ |
        ⟨hbegin, rfl, hstep⟩ | ⟨hbegin, ⟨hhash, hblank, hequals⟩, hstep⟩ |
        ⟨hbegin, hhash, hstep⟩
      · rw [hstep]
        obtain ⟨hstr, hcomment, -⟩ := scan_comment
          (s := { s with c := '#', bComment := true }) rfl htail
        rw [hstr, hcomment]
        cases s.bBegin <;> simp [raw]
      · rw [hstep]
        have hrest := ih (s := { s with c := ' ' }) hs htail
        simpa [hbegin, raw] using hrest
      · rw [hstep]
        have hrest := ih (s := push { s with bBegin := false } '=') hs htail
        simpa [hbegin, raw, push] using hrest
      · rw [hstep]
        have hrest := ih (s := push s c.toLower) hs htail
        simpa [hbegin, raw, push, hhash, hblank, hequals, Ne.symm hhash]
          using hrest
      · rw [hstep]
        have hrest := ih (s := push s c) hs htail
        simpa [hbegin, raw, push, hhash, Ne.symm hhash] using hrest

/-- The characters of a line are the reference before its blanks are
stripped. -/
theorem raw_false (line : Str) :
    raw false line = line.takeWhile (· ≠ '#') := by
  induction line with
  | nil => rfl
  | cons c line ih =>
      rw [raw, List.takeWhile_cons]
      by_cases hhash : c = '#'
      · simp [hhash]
      · simp [hhash, ih]

theorem raw_true (line : Str) :
    raw true line =
      lowercase (((line.takeWhile (· ≠ '#')).takeWhile (· ≠ '=')).filter
        (· ≠ ' ')) ++
      (line.takeWhile (· ≠ '#')).dropWhile (· ≠ '=') := by
  induction line with
  | nil => rfl
  | cons c line ih =>
      rw [raw]
      by_cases hhash : c = '#'
      · simp [hhash, lowercase]
      · by_cases hequals : c = '='
        · subst hequals
          simp [raw_false, lowercase]
        · by_cases hblank : c = ' '
          · subst hblank
            simpa [lowercase] using ih
          · simpa [hhash, hequals, hblank, lowercase] using ih

theorem cleaned_eq (line : Str) :
    cleaned line = (raw true line).rdropWhile (· = ' ') := by
  rw [raw_true, cleaned]

/-- Without a character of its own a line has no `=` either. -/
theorem scan_of_blank {s : Scan} (hs : s.bComment = false)
    (hbegin : s.bBegin = true) {line : Str} (hline : '\n' ∉ line)
    (hblank : ∀ c ∈ raw true line, c = ' ') :
    raw true line = [] ∧ (scan s line).bBegin = true := by
  induction line generalizing s with
  | nil => exact ⟨rfl, hbegin⟩
  | cons c line ih =>
      have hc : c ≠ '\n' := fun heq => hline (heq ▸ List.mem_cons_self)
      have htail : '\n' ∉ line := fun hmem =>
        hline (List.mem_cons_of_mem c hmem)
      rw [scan_cons]
      rcases step_cases hs hc with ⟨rfl, hstep⟩ | ⟨-, rfl, hstep⟩ |
        ⟨-, rfl, hstep⟩ | ⟨-, ⟨hhash, hne, hequals⟩, hstep⟩ |
        ⟨hfalse, -, -⟩
      · rw [hstep]
        obtain ⟨-, -, hkept⟩ := scan_comment
          (s := { s with c := '#', bComment := true }) rfl htail
        exact ⟨by simp [raw], hkept.trans hbegin⟩
      · rw [hstep]
        have hsame : raw true (' ' :: line) = raw true line := by
          simp [raw]
        rw [hsame] at hblank ⊢
        exact ih hs hbegin htail hblank
      · have hequals : ('=' : Char) = ' ' := hblank '=' (by simp [raw])
        exact absurd hequals (by decide)
      · have hlower : c.toLower = ' ' :=
          hblank c.toLower (by simp [raw, hhash, hne, hequals])
        exact absurd ((toLower_eq_iff (by decide)).mp hlower) hne
      · rw [hbegin] at hfalse
        cases hfalse

theorem cleaned_eq_nil_iff {line : Str} (hline : '\n' ∉ line) :
    cleaned line = [] ↔ raw true line = [] := by
  rw [cleaned_eq, List.rdropWhile_eq_nil_iff]
  constructor
  · intro hblank
    have hspaces : ∀ c ∈ raw true line, c = ' ' := fun c hc =>
      of_decide_eq_true (hblank c hc)
    exact (scan_of_blank (s := {}) rfl rfl hline hspaces).1
  · intro hnil c hc
    rw [hnil] at hc
    cases hc

theorem length_cleaned_le (line : Str) :
    (cleaned line).length ≤ (raw true line).length := by
  rw [cleaned_eq]
  exact (List.rdropWhile_prefix _ _).length_le

theorem toInt_of_lt {cnt : Nat} (hcnt : cnt < 2 ^ 31) :
    toInt cnt = cnt := by
  rw [toInt, if_pos hcnt]

/-- A string of less than 32 bits keeps its length. -/
theorem rtrim_eq {line : Str} (hlength : line.length < 2 ^ 32) {cnt : Nat}
    (hcnt : cnt = line.length % 2 ^ 32) :
    rtrim line cnt = (line.rdropWhile (· = ' '),
      (line.rdropWhile (· = ' ')).length) := by
  have hle := (List.rdropWhile_prefix (· = ' ') line).length_le
  have htrimmed := rtrim_counted hcnt
  have hsmall : (line.rdropWhile (· = ' ')).length < 2 ^ 32 :=
    Nat.lt_of_le_of_lt hle hlength
  exact Prod.ext rfl (htrimmed.trans (Nat.mod_eq_of_lt hsmall))

section

variable {line : Str} (hline : '\n' ∉ line) (c : Char)

include hline

theorem scan_clean :
    (scan (clean c) line).str = raw true line ∧
      (scan (clean c) line).bComment = decide ('#' ∈ line) ∧
      (scan (clean c) line).cnt = (raw true line).length % 2 ^ 32 := by
  obtain ⟨hstr, hcomment⟩ := scan_text (s := clean c) rfl hline
  have hcounted := scan_counted (s := clean c) rfl line
  rw [Counted, hstr] at hcounted
  exact ⟨hstr, hcomment, hcounted⟩

/-- A dropped line leaves the variables as they were. -/
theorem scan_dropped (hraw : raw true line = []) :
    ∃ d, scan (clean c) line = { clean d with bComment := '#' ∈ line } := by
  obtain ⟨hstr, hcomment, hcnt⟩ := scan_clean hline c
  have hblank : ∀ d ∈ raw true line, d = ' ' := by
    intro d hd
    rw [hraw] at hd
    cases hd
  have hbegin := (scan_of_blank (s := clean c) rfl rfl hline hblank).2
  rw [hraw] at hstr hcnt
  refine ⟨(scan (clean c) line).c, ?_⟩
  rcases hscan : scan (clean c) line with ⟨b, comment, cnt, d, str⟩
  rw [hscan] at hstr hcomment hcnt hbegin
  simp only at hstr hcomment hcnt hbegin
  rw [hstr, hcomment, hcnt, hbegin]
  rfl

/-- A physical line that ends with a newline is returned cleaned, with its
length, or dropped. -/
theorem finishLine_line (hshort : (raw true line).length < 2 ^ 31)
    (rest : Str) :
    finishLine (loop (clean c) (line ++ '\n' :: rest)) =
      if cleaned line = [] then finishLine (loop (clean '\n') rest)
      else (((cleaned line).length : Int), cleaned line, ⟨rest, false⟩) := by
  obtain ⟨hstr, hcomment, hcnt⟩ := scan_clean hline c
  have hcleaned := Nat.lt_of_le_of_lt (length_cleaned_le line) hshort
  have htrim : rtrim (scan (clean c) line).str (scan (clean c) line).cnt =
      (cleaned line, (cleaned line).length) := by
    rw [hstr, hcnt, rtrim_eq (Nat.lt_trans hshort (by decide)) rfl, cleaned_eq]
  rw [loop_append hline, loop]
  by_cases hdropped : cleaned line = []
  · rw [if_pos hdropped]
    obtain ⟨d, hscan⟩ :=
      scan_dropped hline c ((cleaned_eq_nil_iff hline).mp hdropped)
    rw [hscan]
    by_cases hhash : '#' ∈ line
    · simp [step, hhash, clean, rtrim]
    · rw [step_newline (by simp [hhash])]
      simp [clean, hhash]
  · have hlength : 0 < (cleaned line).length :=
      List.length_pos_iff.mpr hdropped
    rw [if_neg hdropped]
    by_cases hhash : '#' ∈ line
    · have hstep : step (scan (clean c) line) '\n' =
          (.answer, { scan (clean c) line with
            c := '\n', str := cleaned line,
            cnt := (cleaned line).length }) := by
        rw [step, if_pos (by simp [hcomment, hhash]), if_pos rfl, htrim]
        simp [hlength]
      rw [hstep]
      simp [finishLine, toInt_of_lt hcleaned]
    · have hpos : (scan (clean c) line).cnt > 0 := by
        have hne : raw true line ≠ [] := fun hnil =>
          hdropped ((cleaned_eq_nil_iff hline).mpr hnil)
        rw [hcnt, Nat.mod_eq_of_lt (Nat.lt_trans hshort (by decide))]
        exact List.length_pos_iff.mpr hne
      rw [step_newline (by simp [hcomment, hhash]), if_pos hpos]
      simp [finishLine, htrim, toInt_of_lt hcleaned]

end

/-- The rest of the call once the end was met. -/
theorem finishLine_end {s : Scan} (hflow : (step s s.c).1 ≠ .answer)
    (hs : Counted s) (hlength : (step s s.c).2.str.length ≤ 2 ^ 31) :
    finishLine (loop s []) =
      let line := (step s s.c).2.str.rdropWhile (· = ' ')
      (if line = [] then -1 else toInt line.length, line, ⟨[], true⟩) := by
  have hcounted := step_counted hs s.c
  have hsmall := Nat.lt_of_le_of_lt hlength (show 2 ^ 31 < 2 ^ 32 by decide)
  rw [loop, decide_eq_false hflow]
  simp only [finishLine, rtrim_eq hsmall hcounted, Bool.true_and,
    decide_eq_true_eq, List.length_pos_iff, ↓reduceIte]
  by_cases hnil : (step s s.c).2.str.rdropWhile (· = ' ') = []
  · simp only [hnil, ne_eq, not_true_eq_false, ↓reduceIte]
  · simp only [hnil, ne_eq, not_false_eq_true, ↓reduceIte]

theorem step_ne_answer {s : Scan} {c : Char}
    (hs : s.bComment = false ∨ c ≠ '\n') : (step s c).1 ≠ .answer := by
  by_cases hc : c = '\n'
  · subst hc
    have hcomment := hs.resolve_right fun hne => hne rfl
    rw [step_newline hcomment]
    simp only
    split <;> exact nofun
  · rw [step_next s hc]
    exact nofun

theorem step_c_ne_newline (s : Scan) {c : Char} (hc : c ≠ '\n') :
    (step s c).2.c ≠ '\n' := by
  cases hs : s.bComment with
  | true =>
      rw [step_comment hs hc]
      exact hc
  | false =>
      rcases step_cases hs hc with ⟨-, hstep⟩ | ⟨-, -, hstep⟩ |
        ⟨-, -, hstep⟩ | ⟨-, -, hstep⟩ | ⟨-, -, hstep⟩
      · simp [hstep]
      · simp [hstep]
      · simp [hstep, push]
      · rw [hstep]
        exact fun heq => hc ((toLower_eq_iff (by decide)).mp heq)
      · rw [hstep]
        exact hc

theorem scan_concat (s : Scan) (line : Str) (c : Char) :
    scan s (line ++ [c]) = (step (scan s line) c).2 := by
  rw [scan, List.foldl_append]
  rfl

/-- What the second run of the body adds for the last character of a line
without a comment. -/
theorem step_again {s : Scan} (hs : s.bComment = false) {c : Char}
    (hc : c ≠ '\n' ∧ c ≠ '#') :
    ∃ extra, (step (step s c).2 (step s c).2.c).2.str =
        (step s c).2.str ++ extra ∧
      (c = ' ' → ∀ d ∈ extra, d = ' ') ∧
      (c ≠ ' ' → ∃ d, d ≠ ' ' ∧ extra = [d]) ∧ extra.length ≤ 1 := by
  rcases step_cases hs hc.1 with ⟨hhash, -⟩ | ⟨hbegin, rfl, hstep⟩ |
    ⟨hbegin, rfl, hstep⟩ | ⟨hbegin, ⟨hhash, hblank, hequals⟩, hstep⟩ |
    ⟨hbegin, hhash, hstep⟩
  · exact absurd hhash hc.2
  · have hagain : step { s with c := ' ' } ' ' =
        (.next, { s with c := ' ' }) := step_blank hs hbegin
    refine ⟨[], ?_, by simp, by simp, by simp⟩
    rw [hstep]
    simp only [hagain, List.append_nil]
  · have hagain : step (push { s with bBegin := false } '=') '=' =
        (.next, push (push { s with bBegin := false } '=') '=') :=
      step_value hs rfl ⟨by decide, by decide⟩
    refine ⟨['='], ?_, by simp, fun _ => ⟨'=', by decide, rfl⟩, by simp⟩
    rw [hstep]
    simp only [push] at hagain ⊢
    rw [hagain]
  · have hlower : c.toLower ≠ '\n' ∧ c.toLower ≠ '#' ∧ c.toLower ≠ ' ' ∧
        c.toLower ≠ '=' := by
      refine ⟨?_, ?_, ?_, ?_⟩
      · exact fun heq => hc.1 ((toLower_eq_iff (by decide)).mp heq)
      · exact fun heq => hhash ((toLower_eq_iff (by decide)).mp heq)
      · exact fun heq => hblank ((toLower_eq_iff (by decide)).mp heq)
      · exact fun heq => hequals ((toLower_eq_iff (by decide)).mp heq)
    have hagain : step (push s c.toLower) c.toLower =
        (.next, push (push s c.toLower) c.toLower.toLower) :=
      step_name hs hbegin hlower
    have hne : c.toLower.toLower ≠ ' ' := fun heq =>
      hlower.2.2.1 ((toLower_eq_iff (by decide)).mp heq)
    refine ⟨[c.toLower.toLower], ?_, fun heq => absurd heq hblank,
      fun _ => ⟨_, hne, rfl⟩, by simp⟩
    rw [hstep]
    simp only [push] at hagain ⊢
    rw [hagain]
  · have hagain : step (push s c) c = (.next, push (push s c) c) :=
      step_value hs hbegin hc
    refine ⟨[c], ?_, ?_, fun hne => ⟨c, hne, rfl⟩, by simp⟩
    · rw [hstep]
      simp only [push] at hagain ⊢
      rw [hagain]
    · intro hblank d hd
      rw [List.mem_singleton.mp hd]
      exact hblank

section

variable {line : Str} (hline : '\n' ∉ line)
  (hshort : (raw true line).length < 2 ^ 31)

include hline hshort

/-- A line without a newline, in whose second run only blanks were added. -/
theorem finishLine_last (extra : Str) (c : Char)
    (hflow : (step (scan (clean c) line) (scan (clean c) line).c).1 ≠ .answer)
    (hextra : (step (scan (clean c) line) (scan (clean c) line).c).2.str =
      raw true line ++ extra) (hlength : extra.length ≤ 1) :
    finishLine (loop (clean c) line) =
      let last := (raw true line ++ extra).rdropWhile (· = ' ')
      (if last = [] then -1 else toInt last.length, last, ⟨[], true⟩) := by
  have hbound : (step (scan (clean c) line)
      (scan (clean c) line).c).2.str.length ≤ 2 ^ 31 := by
    rw [hextra, List.length_append]
    omega
  have hend := finishLine_end hflow (scan_counted (s := clean c) rfl line)
    hbound
  rw [hextra] at hend
  rw [← hend, ← loop_append hline, List.append_nil]

/-- In a comment the character seen last is skipped once more. -/
theorem finishLine_comment (hhash : '#' ∈ line) (c : Char) :
    finishLine (loop (clean c) line) =
      (if cleaned line = [] then -1 else ((cleaned line).length : Int),
        cleaned line, ⟨[], true⟩) := by
  obtain ⟨hstr, hcomment, -⟩ := scan_clean hline c
  rw [decide_eq_true hhash] at hcomment
  have hc : (scan (clean c) line).c ≠ '\n' := by
    rcases List.eq_nil_or_concat line with rfl | ⟨before, last, rfl⟩
    · cases hhash
    · rw [List.concat_eq_append] at hline ⊢
      rw [scan_concat]
      apply step_c_ne_newline
      rintro rfl
      exact hline (by simp)
  have hstep := step_comment hcomment hc
  have hfinish := finishLine_last hline hshort [] c
    (by rw [hstep]; exact nofun) (by rw [hstep, List.append_nil, ← hstr])
    (by simp)
  have hcleaned := Nat.lt_of_le_of_lt (length_cleaned_le line) hshort
  rw [List.append_nil, ← cleaned_eq] at hfinish
  rw [hfinish]
  simp only [toInt_of_lt hcleaned]

end

theorem rdropWhile_append_blanks {extra : Str}
    (hextra : ∀ d ∈ extra, d = ' ') (text : Str) :
    (text ++ extra).rdropWhile (· = ' ') = text.rdropWhile (· = ' ') := by
  have hblank : ∀ d ∈ extra.reverse, decide (d = ' ') = true := by
    intro d hd
    exact decide_eq_true (hextra d (List.mem_reverse.mp hd))
  rw [List.rdropWhile, List.reverse_append,
    List.dropWhile_append_of_pos hblank, List.rdropWhile]

section

variable {before : Str} {last : Char} (hline : '\n' ∉ before ++ [last])
  (hshort : (raw true (before ++ [last])).length < 2 ^ 31)
  (hhash : '#' ∉ before ++ [last]) (c : Char)

include hline hshort hhash

theorem finishLine_again :
    ∃ extra, finishLine (loop (clean c) (before ++ [last])) =
        (let text := (raw true (before ++ [last]) ++ extra).rdropWhile
          (· = ' ')
        (if text = [] then -1 else toInt text.length, text, ⟨[], true⟩)) ∧
      (last = ' ' → ∀ d ∈ extra, d = ' ') ∧
      (last ≠ ' ' → ∃ d, d ≠ ' ' ∧ extra = [d]) := by
  have hbefore : '\n' ∉ before := fun hmem =>
    hline (List.mem_append_left [last] hmem)
  have hplain : '#' ∉ before := fun hmem =>
    hhash (List.mem_append_left [last] hmem)
  have hlast : last ≠ '\n' ∧ last ≠ '#' :=
    ⟨fun heq => hline (by simp [heq]), fun heq => hhash (by simp [heq])⟩
  have hfirst := (scan_clean hbefore c).2.1
  rw [decide_eq_false hplain] at hfirst
  obtain ⟨hstr, hcomment, -⟩ := scan_clean hline c
  rw [decide_eq_false hhash] at hcomment
  obtain ⟨extra, hagain, hblank, hother, hlength⟩ := step_again hfirst hlast
  rw [← scan_concat, hstr] at hagain
  refine ⟨extra, ?_, hblank, hother⟩
  exact finishLine_last hline hshort extra c
    (step_ne_answer (Or.inl hcomment)) hagain hlength

/-- A blank is stripped, however often it was taken. -/
theorem finishLine_blank (hblank : last = ' ') :
    finishLine (loop (clean c) (before ++ [last])) =
      (if cleaned (before ++ [last]) = [] then -1
        else ((cleaned (before ++ [last])).length : Int),
        cleaned (before ++ [last]), ⟨[], true⟩) := by
  obtain ⟨extra, hfinish, hextra, -⟩ := finishLine_again hline hshort hhash c
  have hcleaned := Nat.lt_of_le_of_lt
    (length_cleaned_le (before ++ [last])) hshort
  rw [hfinish, rdropWhile_append_blanks (hextra hblank), ← cleaned_eq]
  simp only [toInt_of_lt hcleaned]

/-- Any other character is taken twice. -/
theorem finishLine_twice (hblank : last ≠ ' ') :
    ∃ d, finishLine (loop (clean c) (before ++ [last])) =
      (toInt ((raw true (before ++ [last])).length + 1),
        raw true (before ++ [last]) ++ [d], ⟨[], true⟩) := by
  obtain ⟨extra, hfinish, -, hextra⟩ := finishLine_again hline hshort hhash c
  obtain ⟨d, hd, rfl⟩ := hextra hblank
  refine ⟨d, ?_⟩
  rw [hfinish, List.rdropWhile_concat_neg _ _ _ (by simpa using hd)]
  simp

end

/-- The lines of a call that has already skipped some lines. -/
def readFrom (c : Char) (content : Str) : List (Int × Str) :=
  if (finishLine (loop (clean c) content)).1 = -1 then []
  else
    ((finishLine (loop (clean c) content)).1,
      (finishLine (loop (clean c) content)).2.1) ::
      lines (finishLine (loop (clean c) content)).2.2
        (finishLine (loop (clean c) content)).2.1

theorem lines_eq_readFrom (content str : Str) :
    lines ⟨content, false⟩ str = readFrom (Char.ofNat 0) content := by
  rw [lines]
  rfl

theorem lines_eof (rest str : Str) : lines ⟨rest, true⟩ str = [] := by
  rw [lines]
  rfl

/-- The lines a file should have, with their lengths. -/
def expected (content : Str) : List (Int × Str) :=
  (reference content).map fun line => ((line.length : Int), line)

section

variable {line : Str} (hline : '\n' ∉ line)

include hline

theorem expected_line (rest : Str) :
    expected (line ++ '\n' :: rest) =
      if cleaned line = [] then expected rest
      else (((cleaned line).length : Int), cleaned line) :: expected rest := by
  rw [expected, reference, List.splitOn_append_cons_self_of_not_mem hline,
    List.map_cons, List.filter_cons]
  by_cases hdropped : cleaned line = []
  · simp [hdropped, expected, reference]
  · simp [hdropped, expected, reference]

theorem expected_last :
    expected line =
      if cleaned line = [] then []
      else [(((cleaned line).length : Int), cleaned line)] := by
  rw [expected, reference, List.splitOn_eq_singleton hline, List.map_cons,
    List.map_nil, List.filter_cons]
  by_cases hdropped : cleaned line = []
  · simp [hdropped]
  · simp [hdropped]

theorem readFrom_line (hshort : (raw true line).length < 2 ^ 31) (c : Char)
    (rest : Str) :
    readFrom c (line ++ '\n' :: rest) =
      if cleaned line = [] then readFrom '\n' rest
      else (((cleaned line).length : Int), cleaned line) ::
        readFrom (Char.ofNat 0) rest := by
  have hfinish := finishLine_line hline c hshort rest
  rw [readFrom, hfinish]
  by_cases hdropped : cleaned line = []
  · rw [if_pos hdropped, if_pos hdropped, readFrom]
  · have hread : ((cleaned line).length : Int) ≠ -1 := by omega
    rw [if_neg hdropped, if_neg hdropped]
    simp only [if_neg hread, lines_eq_readFrom]

/-- A last line that is finished like the others. -/
theorem readFrom_last {c : Char}
    (hfinish : finishLine (loop (clean c) line) =
      (if cleaned line = [] then -1 else ((cleaned line).length : Int),
        cleaned line, ⟨[], true⟩)) :
    readFrom c line = expected line := by
  rw [readFrom, hfinish, expected_last hline]
  by_cases hdropped : cleaned line = []
  · simp [hdropped]
  · have hread : ((cleaned line).length : Int) ≠ -1 := by omega
    simp [hdropped, hread, lines_eof]

end

/-- A character too many is never what the file should have. -/
theorem readFrom_twice_ne {before : Str} {last : Char}
    (hline : '\n' ∉ before ++ [last])
    (hshort : (raw true (before ++ [last])).length < 2 ^ 31)
    (hhash : '#' ∉ before ++ [last]) (hblank : last ≠ ' ') (c : Char) :
    readFrom c (before ++ [last]) ≠ expected (before ++ [last]) := by
  obtain ⟨d, hfinish⟩ := finishLine_twice hline hshort hhash c hblank
  have hread : toInt ((raw true (before ++ [last])).length + 1) ≠ -1 := by
    unfold toInt
    split <;> omega
  have hcleaned := length_cleaned_le (before ++ [last])
  rw [readFrom, hfinish, expected_last hline]
  simp only [if_neg hread, lines_eof]
  split
  · exact List.cons_ne_nil _ _
  · intro heq
    injection heq with hpair
    injection hpair with hnumber hstring
    have hlength := congrArg List.length hstring
    rw [List.length_append, List.length_singleton] at hlength
    omega

/-- An empty rest: behind a dropped line nothing is read, otherwise the value
the variable was initialised with. -/
theorem readFrom_nil :
    readFrom '\n' [] = expected [] ∧
      readFrom (Char.ofNat 0) [] ≠ expected [] := by
  have hfirst : finishLine (loop (clean '\n') []) = (-1, [], ⟨[], true⟩) := by
    decide
  have hsecond : finishLine (loop (clean (Char.ofNat 0)) []) =
      (1, [Char.ofNat 0], ⟨[], true⟩) := by
    decide
  have hnone : expected [] = [] := by
    decide
  constructor
  · rw [readFrom, hfirst, hnone]
    rfl
  · rw [readFrom, hsecond, hnone]
    exact List.cons_ne_nil _ _

end ConfigFileReader

/-- What follows the last newline of a file. -/
def lastPiece (content : Str) : Str :=
  (content.splitOn '\n').getLastD []

/-- The end of a file that is read as it should be: behind a dropped line, or
in a last line with a comment or a blank at its end. -/
def EndsWell (content : Str) : Prop :=
  if lastPiece content = [] then
    ∃ line, (terminated '\n' content).getLast? = some line ∧
      cleaned line = []
  else '#' ∈ lastPiece content ∨ (lastPiece content).getLast? = some ' '

namespace ConfigFileReader

/-- The same for what is left of a file; the flag says that a line was just
returned. -/
def RestEndsWell (fresh : Bool) (content : Str) : Prop :=
  if lastPiece content = [] then
    match (terminated '\n' content).getLast? with
    | none => fresh = false
    | some line => cleaned line = []
  else '#' ∈ lastPiece content ∨ (lastPiece content).getLast? = some ' '

theorem restEndsWell_true (content : Str) :
    RestEndsWell true content ↔ EndsWell content := by
  rw [RestEndsWell, EndsWell]
  split
  · cases (terminated '\n' content).getLast? <;> simp
  · exact Iff.rfl

section

variable {line : Str} (hline : '\n' ∉ line) (fresh : Bool)

include hline

theorem restEndsWell_line (rest : Str) :
    RestEndsWell fresh (line ++ '\n' :: rest) ↔
      RestEndsWell (decide (cleaned line ≠ [])) rest := by
  have hlast : lastPiece (line ++ '\n' :: rest) = lastPiece rest := by
    have hne := List.splitOn_ne_nil '\n' rest
    rw [lastPiece, List.splitOn_append_cons_self_of_not_mem hline, lastPiece]
    cases hpieces : rest.splitOn '\n' with
    | nil => exact absurd hpieces hne
    | cons piece pieces => rfl
  rw [RestEndsWell, RestEndsWell, hlast, terminated_append_cons hline]
  split
  · cases hpieces : terminated '\n' rest with
    | nil => simp
    | cons piece pieces =>
        have hfound := List.getLast?_eq_some_getLast
          (List.cons_ne_nil piece pieces)
        rw [List.getLast?_cons_cons, hfound]
  · exact Iff.rfl

theorem restEndsWell_last :
    RestEndsWell fresh line ↔
      if line = [] then fresh = false
      else '#' ∈ line ∨ line.getLast? = some ' ' := by
  have hlast : lastPiece line = line := by
    rw [lastPiece, List.splitOn_eq_singleton hline]
    rfl
  rw [RestEndsWell, hlast, terminated_of_not_mem hline]
  rfl

end

/-- The value of the variable when a line begins. -/
def stale (fresh : Bool) : Char :=
  if fresh then Char.ofNat 0 else '\n'

theorem readFrom_last_iff {line : Str} (hline : '\n' ∉ line)
    (hshort : (raw true line).length < 2 ^ 31) (fresh : Bool) :
    readFrom (stale fresh) line = expected line ↔
      RestEndsWell fresh line := by
  rw [restEndsWell_last hline]
  rcases List.eq_nil_or_concat line with rfl | ⟨before, last, hconcat⟩
  · cases fresh with
    | false => simpa [stale] using readFrom_nil.1
    | true => simpa [stale] using readFrom_nil.2
  · rw [List.concat_eq_append] at hconcat
    subst hconcat
    have hne : before ++ [last] ≠ [] := by simp
    rw [if_neg hne, List.getLast?_append, List.getLast?_singleton]
    simp only [Option.some_or, Option.some.injEq]
    by_cases hhash : '#' ∈ before ++ [last]
    · have hread := readFrom_last hline
        (finishLine_comment hline hshort hhash (stale fresh))
      exact ⟨fun _ => Or.inl hhash, fun _ => hread⟩
    · by_cases hblank : last = ' '
      · have hread := readFrom_last hline
          (finishLine_blank hline hshort hhash (stale fresh) hblank)
        exact ⟨fun _ => Or.inr hblank, fun _ => hread⟩
      · have hread := readFrom_twice_ne hline hshort hhash hblank
          (stale fresh)
        exact ⟨fun heq => absurd heq hread,
          fun hor => absurd hor (not_or.mpr ⟨hhash, hblank⟩)⟩

/-- By induction over the physical lines. -/
theorem readFrom_iff (content : Str)
    (hshort : ∀ line ∈ content.splitOn '\n',
      (raw true line).length < 2 ^ 31)
    (fresh : Bool) :
    readFrom (stale fresh) content = expected content ↔
      RestEndsWell fresh content := by
  induction hlength : content.length using Nat.strong_induction_on
    generalizing content fresh with
  | _ length ih =>
      by_cases hmem : '\n' ∈ content
      · obtain ⟨line, rest, rfl, hline⟩ := List.eq_append_cons_of_mem hmem
        rw [List.splitOn_append_cons_self_of_not_mem hline,
          List.forall_mem_cons] at hshort
        obtain ⟨hfirst, hrest⟩ := hshort
        have hless : rest.length < length := by
          rw [← hlength, List.length_append, List.length_cons]
          omega
        have htail := ih rest.length hless rest hrest
          (decide (cleaned line ≠ [])) rfl
        rw [readFrom_line hline hfirst, expected_line hline,
          restEndsWell_line hline, ← htail]
        by_cases hdropped : cleaned line = []
        · simp [hdropped, stale]
        · simp [hdropped, stale]
      · rw [List.splitOn_eq_singleton hmem] at hshort
        have hfirst := List.forall_mem_singleton.mp hshort
        exact readFrom_last_iff hmem hfirst fresh

/-- A file of which no line keeps `2 ^ 31` characters is read as it should be
exactly when it ends well. -/
theorem lines_eq_expected_iff {content : Str}
    (hshort : ∀ line ∈ content.splitOn '\n',
      (raw true line).length < 2 ^ 31)
    (str : Str) :
    lines ⟨content, false⟩ str = expected content ↔ EndsWell content := by
  rw [lines_eq_readFrom, ← restEndsWell_true]
  exact readFrom_iff content hshort true

namespace ReaderWitness

/-- The last line has no newline, and its last character comes twice. -/
theorem last_character_twice :
    lines ⟨"Port = 25".toList, false⟩ [] =
        [(9, "port= 255".toList)] ∧
      expected "Port = 25".toList = [(8, "port= 25".toList)] := by
  decide +kernel

/-- A line that is returned is followed by one of a null character. -/
theorem null_line_added :
    lines ⟨"[server]\n".toList, false⟩ [] =
        [(8, "[server]".toList), (1, [Char.ofNat 0])] ∧
      expected "[server]\n".toList = [(8, "[server]".toList)] := by
  decide +kernel

def closed : Str :=
  "Port = 25 # smtp\n\n".toList

theorem closed_read :
    lines ⟨closed, false⟩ [] = [(8, "port= 25".toList)] := by
  have hshort : ∀ line ∈ closed.splitOn '\n',
      (raw true line).length < 2 ^ 31 := by
    decide +kernel
  have hends : EndsWell closed := by
    rw [EndsWell, if_pos (by decide)]
    exact ⟨[], by decide, by decide⟩
  rw [(lines_eq_expected_iff hshort []).mpr hends]
  decide

end ReaderWitness

end ConfigFileReader

end GreylistServer
