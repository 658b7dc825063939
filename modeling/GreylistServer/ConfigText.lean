/-
What the lines of a configuration file look like.  Whatever the file holds, a
line that `getline` returns has no newline and does not begin with a blank,
and so it is never empty.
-/
import GreylistServer.ConfigFileLines

namespace GreylistServer

namespace ConfigFileReader

/-- The line so far: no newline, no blank at the front, and not empty behind
an `=`. -/
structure Plain (s : Scan) : Prop where
  newline : '\n' ∉ s.str
  front : s.str.head? ≠ some ' '
  begun : s.bBegin = false → s.str ≠ []

/-- Trimming takes nothing from the front of a line. -/
theorem rdropWhile_blank {line : Str} (hfront : line.head? ≠ some ' ') :
    (line.rdropWhile (· = ' ')).head? ≠ some ' ' ∧
      (line ≠ [] → line.rdropWhile (· = ' ') ≠ []) := by
  have hkept : line ≠ [] → line.rdropWhile (· = ' ') ≠ [] := by
    intro hne hnil
    obtain ⟨c, rest, rfl⟩ := List.exists_cons_of_ne_nil hne
    have hblank := List.rdropWhile_eq_nil_iff.mp hnil c List.mem_cons_self
    exact hfront (congrArg some (of_decide_eq_true hblank))
  refine ⟨?_, hkept⟩
  obtain ⟨tail, heq⟩ := List.rdropWhile_prefix (· = ' ') line
  cases htrimmed : line.rdropWhile (· = ' ') with
  | nil => exact Option.some_ne_none _ |>.symm
  | cons c rest =>
      rw [htrimmed] at heq
      rw [← heq] at hfront
      exact hfront

theorem Plain.trims {s after : Scan} (hs : Plain s) (cnt : Nat)
    (hstr : after.str = (rtrim s.str cnt).1)
    (hbegin : after.bBegin = s.bBegin) : Plain after := by
  have htrim : (rtrim s.str cnt).1 = s.str.rdropWhile (· = ' ') := by
    rw [rtrim]
  obtain ⟨hfront, hkept⟩ := rdropWhile_blank hs.front
  rw [htrim] at hstr
  refine ⟨?_, ?_, ?_⟩
  · rw [hstr]
    intro hmem
    exact hs.newline ((List.rdropWhile_prefix (· = ' ') s.str).subset hmem)
  · rw [hstr]
    exact hfront
  · intro hafter
    rw [hstr]
    rw [hbegin] at hafter
    exact hkept (hs.begun hafter)

/-- A character that is not put behind the line, where it is no `=`. -/
theorem Plain.skips {s after : Scan} (hs : Plain s)
    (hstr : after.str = s.str)
    (hbegin : after.bBegin = false → s.bBegin = false) : Plain after where
  newline := by
    rw [hstr]
    exact hs.newline
  front := by
    rw [hstr]
    exact hs.front
  begun := by
    intro hafter
    rw [hstr]
    exact hs.begun (hbegin hafter)

/-- A character put behind the line. -/
theorem Plain.pushes {s after : Scan} (hs : Plain s) {c : Char}
    (hstr : after.str = s.str ++ [c]) (hc : c ≠ '\n')
    (hblank : s.bBegin = true → c ≠ ' ') : Plain after := by
  refine ⟨?_, ?_, fun _ => by rw [hstr]; simp⟩
  · rw [hstr]
    intro hmem
    rcases List.mem_append.mp hmem with hold | hnew
    · exact hs.newline hold
    · exact hc (List.mem_singleton.mp hnew).symm
  · rw [hstr]
    cases hline : s.str with
    | cons first rest =>
        have hfront := hs.front
        rw [hline] at hfront
        exact hfront
    | nil =>
        have hbegin : s.bBegin = true := by
          cases hbegin : s.bBegin with
          | true => rfl
          | false => exact absurd hline (hs.begun hbegin)
        intro hhead
        exact hblank hbegin (Option.some.inj hhead)

theorem step_plain {s : Scan} (hs : Plain s) (c : Char) :
    Plain (step s c).2 := by
  obtain ⟨bBegin, bComment, cnt, last, str⟩ := s
  unfold step
  dsimp only
  split
  · split
    · split
      · exact hs.trims cnt rfl rfl
      · exact hs.trims cnt rfl rfl
    · exact ⟨hs.newline, hs.front, hs.begun⟩
  · have hequals : (if (bBegin && decide (c ≠ '=')) = true then c.toLower
        else c) ≠ '=' → bBegin = true →
          (bBegin && decide (c ≠ '=')) = true := by
      intro hsmall hbegin
      by_cases hc : c = '='
      · simp [hc] at hsmall
      · simp [hbegin, hc]
    generalize (if (bBegin && decide (c ≠ '=')) = true then c.toLower
      else c) = small at hequals ⊢
    have hskips : small ≠ '=' → ∀ comment, Plain
        { bBegin := bBegin && decide (c ≠ '=')
          bComment := comment
          cnt := cnt
          c := small
          str := str } := by
      intro hsmall comment
      refine hs.skips rfl ?_
      intro hafter
      cases bBegin with
      | false => rfl
      | true =>
          rw [hequals hsmall rfl] at hafter
          cases hafter
    split
    · next hblank =>
        have hsmall : small = ' ' :=
          of_decide_eq_true (Bool.and_eq_true_iff.mp hblank).2
        exact hskips (by rw [hsmall]; decide) _
    · next hblank =>
        split
        · next hhash => exact hskips (by rw [hhash]; decide) true
        · split
          · next hnewline =>
              have hplain := hskips (by rw [hnewline]; decide) bComment
              split <;> exact hplain
          · next hnewline =>
              refine hs.pushes rfl hnewline ?_
              intro hbegin hsmall
              exact hblank (Bool.and_eq_true_iff.mpr
                ⟨hbegin, decide_eq_true hsmall⟩)

/-- The loop is left with a line that is not empty. -/
theorem step_cnt (s : Scan) (c : Char) :
    (step s c).1 = .next ∨ 0 < (step s c).2.cnt := by
  obtain ⟨bBegin, bComment, cnt, last, str⟩ := s
  unfold step
  dsimp only
  split
  · split
    · split
      · next hcnt => exact Or.inr hcnt
      · exact Or.inl rfl
    · exact Or.inl rfl
  · generalize (if (bBegin && decide (c ≠ '=')) = true then c.toLower
      else c) = small
    split
    · exact Or.inl rfl
    · split
      · exact Or.inl rfl
      · split
        · split
          · next hcnt => exact Or.inr hcnt
          · exact Or.inl rfl
        · exact Or.inl rfl

/-- What the loop leaves: a plain line with its length, and characters in it
unless the end of the file was met. -/
theorem loop_plain {s : Scan} (hs : Plain s) (hcounted : Counted s)
    (text : Str) :
    Plain (loop s text).2.1 ∧ Counted (loop s text).2.1 ∧
      ((loop s text).2.2.eof = false → 0 < (loop s text).2.1.cnt) ∧
      ((loop s text).1 = true → 0 < (loop s text).2.1.cnt) := by
  induction text generalizing s with
  | nil =>
      refine ⟨step_plain hs s.c, step_counted hcounted s.c, ?_, ?_⟩
      · intro heof
        cases heof
      · intro hanswer
        have hflow : (step s s.c).1 = .answer := of_decide_eq_true hanswer
        rcases step_cnt s s.c with hnext | hcnt
        · rw [hflow] at hnext
          cases hnext
        · exact hcnt
  | cons c rest ih =>
      have hplain := step_plain hs c
      have hcount := step_counted hcounted c
      have hcnt := step_cnt s c
      rw [loop]
      rcases hstep : step s c with ⟨flow, after⟩
      rw [hstep] at hplain hcount hcnt
      cases flow with
      | next => exact ih hplain hcount
      | leave =>
          have hpos := hcnt.resolve_left Flow.noConfusion
          exact ⟨hplain, hcount, fun _ => hpos, fun _ => hpos⟩
      | answer =>
          have hpos := hcnt.resolve_left Flow.noConfusion
          exact ⟨hplain, hcount, fun _ => hpos, fun _ => hpos⟩

/-- A line that the program can work with. -/
def Usable (line : Str) : Prop :=
  line ≠ [] ∧ '\n' ∉ line

theorem Counted.ne_nil {s : Scan} (hcounted : Counted s) (hcnt : 0 < s.cnt) :
    s.str ≠ [] := by
  intro hnil
  rw [Counted, hnil] at hcounted
  rw [hcounted] at hcnt
  exact absurd hcnt (by decide)

theorem getline_usable {reader : ConfigFileReader} {str : Str}
    (hread : (reader.getline str).1 ≠ -1) :
    Usable (reader.getline str).2.1 := by
  unfold getline at hread ⊢
  split at hread
  · exact absurd rfl hread
  · next heof =>
      rw [if_neg heof]
      have hstart : Plain {} :=
        ⟨List.not_mem_nil, by decide, fun hbegin => by cases hbegin⟩
      obtain ⟨hplain, hcounted, hleft, hanswer⟩ :=
        loop_plain hstart rfl reader.rest
      rcases hloop : loop {} reader.rest with ⟨returned, s, after⟩
      rw [hloop] at hplain hcounted hleft hanswer hread
      have htrimmed : Plain { s with str := (rtrim s.str s.cnt).1 } :=
        hplain.trims s.cnt rfl rfl
      cases returned with
      | true => exact ⟨hcounted.ne_nil (hanswer rfl), hplain.newline⟩
      | false =>
          have hcount := rtrim_counted hcounted
          have hkept : s.str ≠ [] → (rtrim s.str s.cnt).1 ≠ [] :=
            (rdropWhile_blank hplain.front).2
          have hline : (finishLine (false, s, after)).2.1 =
              (rtrim s.str s.cnt).1 := by
            rw [finishLine]
            split
            · rfl
            · split <;> rfl
          rw [hline]
          refine ⟨?_, htrimmed.newline⟩
          cases heof : after.eof with
          | false => exact hkept (hcounted.ne_nil (hleft heof))
          | true =>
              intro hnil
              rw [hnil] at hcount
              have hzero : (rtrim s.str s.cnt).2 = 0 := hcount
              apply hread
              rw [finishLine]
              rw [heof, hzero]
              rfl

/-- The lines of a configuration as `ConfigReader` collects them. -/
def fileLines (text : Str) : List Str :=
  (lines { rest := text } []).map Prod.snd

theorem lines_usable (reader : ConfigFileReader) (str : Str) :
    ∀ entry ∈ reader.lines str, Usable entry.2 := by
  induction reader, str using lines.induct with
  | case1 reader str hread =>
      rw [lines, dif_pos hread]
      exact List.forall_mem_nil _
  | case2 reader str hread ih =>
      rw [lines, dif_neg hread]
      exact List.forall_mem_cons.mpr ⟨getline_usable hread, ih⟩

theorem fileLines_usable (text : Str) :
    ∀ line ∈ fileLines text, Usable line := by
  intro line hline
  obtain ⟨entry, hentry, rfl⟩ := List.mem_map.mp hline
  exact lines_usable _ _ entry hentry

end ConfigFileReader

end GreylistServer
