/-
Shortened host names.  The loop runs from the end of the name and counts a part
behind every dot but a last one, a long part twice, until it has three.  Where
it stops is decided by what stands behind, so names that share a long enough
domain are shortened to the same text, and a shortened name is not shortened
any further.
-/
import GreylistServer.GreylistRun

namespace GreylistServer

namespace IPAddress

/-- What the loop counts at a position. -/
def partsAt (name : Str) (pos : Nat) : Nat :=
  if 0 < pos ∧ name[pos - 1]? = some '.' then
    if 7 ≤ name.length - pos then 2 else 1
  else 0

/-- What it has counted when it has come down to a position. -/
def partsFrom (name : Str) (pos : Nat) : Nat :=
  ∑ p ∈ Finset.Ico pos name.length, partsAt name p

/-- The loop goes on above the position and not below it. -/
structure StopsAt (name : Str) (stop : Nat) : Prop where
  le : stop ≤ name.length
  above : ∀ pos, stop < pos → pos ≤ name.length → partsFrom name pos < 3
  reached : stop = 0 ∨ 3 ≤ partsFrom name stop

variable {name : Str} {pos stop : Nat}

theorem partsAt_le (name : Str) (pos : Nat) : partsAt name pos ≤ 2 := by
  unfold partsAt
  split
  · split <;> omega
  · omega

theorem partsAt_pos_iff :
    0 < partsAt name pos ↔ 0 < pos ∧ name[pos - 1]? = some '.' := by
  unfold partsAt
  split
  · next hdot =>
      refine iff_of_true ?_ hdot
      split <;> omega
  · next hdot => exact iff_of_false (Nat.lt_irrefl 0) hdot

theorem partsFrom_length (name : Str) : partsFrom name name.length = 0 := by
  simp [partsFrom]

theorem partsFrom_step (hpos : pos < name.length) :
    partsFrom name pos = partsAt name pos + partsFrom name (pos + 1) :=
  Finset.sum_eq_sum_Ico_succ_bot hpos (partsAt name)

theorem partsFrom_pos_iff :
    0 < partsFrom name pos ↔
      ∃ p, pos ≤ p ∧ p < name.length ∧ 0 < p ∧ name[p - 1]? = some '.' := by
  rw [partsFrom, Finset.sum_pos_iff]
  constructor
  · rintro ⟨p, hmem, hparts⟩
    obtain ⟨hle, hlt⟩ := Finset.mem_Ico.mp hmem
    exact ⟨p, hle, hlt, partsAt_pos_iff.mp hparts⟩
  · rintro ⟨p, hle, hlt, hdot⟩
    exact ⟨p, Finset.mem_Ico.mpr ⟨hle, hlt⟩, partsAt_pos_iff.mpr hdot⟩

theorem shortenLoop_succ (name : Str) (pos parts : Nat) :
    shortenLoop name (pos + 1) parts =
      if parts < 3 then shortenLoop name pos (partsAt name pos + parts)
      else (pos + 1, parts) := by
  rw [shortenLoop]
  split
  · unfold partsAt
    split
    · split
      · rw [Nat.add_comm]
      · rw [Nat.add_comm]
    · rw [Nat.zero_add]
  · rfl

theorem shortenLoop_stops (hle : pos ≤ name.length)
    (habove : ∀ p, pos < p → p ≤ name.length → partsFrom name p < 3) :
    ∃ stop, StopsAt name stop ∧
      shortenLoop name pos (partsFrom name pos) =
        (stop, partsFrom name stop) := by
  induction pos with
  | zero => exact ⟨0, ⟨hle, habove, Or.inl rfl⟩, rfl⟩
  | succ pos ih =>
      rw [shortenLoop_succ]
      by_cases hfew : partsFrom name (pos + 1) < 3
      · rw [if_pos hfew, ← partsFrom_step hle]
        apply ih (Nat.le_of_lt hle)
        intro p hlt hple
        rcases Nat.eq_or_lt_of_le (Nat.succ_le_of_lt hlt) with heq | hgt
        · exact heq ▸ hfew
        · exact habove p hgt hple
      · rw [if_neg hfew]
        exact ⟨pos + 1, ⟨hle, habove, Or.inr (Nat.le_of_not_lt hfew)⟩, rfl⟩

theorem exists_stopsAt (name : Str) :
    ∃ stop, StopsAt name stop ∧
      shortenLoop name name.length 0 = (stop, partsFrom name stop) := by
  have hloop := shortenLoop_stops (Nat.le_refl name.length)
    fun p hlt hle => absurd hlt (Nat.not_lt.mpr hle)
  rwa [partsFrom_length] at hloop

theorem StopsAt.unique (hstop : StopsAt name stop) (hpos : StopsAt name pos) :
    stop = pos := by
  rcases Nat.lt_trichotomy stop pos with hlt | heq | hgt
  · have hfew := hstop.above pos hlt hpos.le
    rcases hpos.reached with hzero | hmany <;> omega
  · exact heq
  · have hfew := hpos.above stop hgt hstop.le
    rcases hstop.reached with hzero | hmany <;> omega

/-- The shortened name is what stands behind the position. -/
theorem StopsAt.getShortenedName_eq (hstop : StopsAt name stop) :
    getShortenedName name =
      if partsFrom name stop = 0 then [] else name.drop stop := by
  obtain ⟨other, hother, hloop⟩ := exists_stopsAt name
  rw [getShortenedName, hloop, hother.unique hstop]

theorem StopsAt.lt (hstop : StopsAt name stop)
    (hparts : partsFrom name stop ≠ 0) : stop < name.length := by
  rcases Nat.lt_or_eq_of_le hstop.le with hlt | heq
  · exact hlt
  · rw [heq] at hparts
    exact absurd (partsFrom_length name) hparts

/-- The dots that count are the ones before the last character. -/
theorem partsFrom_zero_pos_iff :
    0 < partsFrom name 0 ↔ '.' ∈ name.dropLast := by
  rw [partsFrom_pos_iff, List.mem_iff_getElem?]
  constructor
  · rintro ⟨p, -, hlt, hpos, hdot⟩
    refine ⟨p - 1, ?_⟩
    rw [List.getElem?_dropLast, if_pos (by omega), hdot]
  · rintro ⟨i, hdot⟩
    rw [List.getElem?_dropLast] at hdot
    split at hdot
    · next hlt =>
        exact ⟨i + 1, Nat.zero_le _, by omega, Nat.succ_pos i, hdot⟩
    · cases hdot

theorem partsFrom_one_pos_iff :
    0 < partsFrom name 1 ↔ '.' ∈ name.dropLast := by
  rw [← partsFrom_zero_pos_iff, partsFrom_pos_iff, partsFrom_pos_iff]
  constructor
  · rintro ⟨p, -, hrest⟩
    exact ⟨p, Nat.zero_le p, hrest⟩
  · rintro ⟨p, -, hlt, hpos, hdot⟩
    exact ⟨p, hpos, hlt, hpos, hdot⟩

/-- Only what stands behind a position decides what is counted there. -/
theorem partsAt_append (left right : Str) (hpos : 0 < pos) :
    partsAt (left ++ right) (left.length + pos) = partsAt right pos := by
  have hchar : (left ++ right)[left.length + pos - 1]? = right[pos - 1]? := by
    rw [Nat.add_sub_assoc hpos, List.getElem?_append_right (by omega)]
    congr 1
    omega
  have hlength : (left ++ right).length - (left.length + pos) =
      right.length - pos := by
    rw [List.length_append]
    omega
  have hbehind : 0 < left.length + pos := by omega
  simp only [partsAt, hchar, hlength, hbehind, hpos, true_and]

theorem partsFrom_append (left right : Str) (hpos : 0 < pos) :
    partsFrom (left ++ right) (left.length + pos) = partsFrom right pos := by
  rw [partsFrom, partsFrom, List.length_append, Nat.add_comm left.length pos,
    Nat.add_comm left.length right.length, ← Finset.sum_Ico_add']
  apply Finset.sum_congr rfl
  intro p hp
  rw [Nat.add_comm p left.length]
  exact partsAt_append left right
    (Nat.lt_of_lt_of_le hpos (Finset.mem_Ico.mp hp).1)

/-- The loop does not look at what stands before its stop. -/
theorem StopsAt.append {right : Str} (hstop : StopsAt right stop)
    (hpos : 0 < stop) (left : Str) :
    StopsAt (left ++ right) (left.length + stop) where
  le := by
    rw [List.length_append]
    exact Nat.add_le_add_left hstop.le left.length
  above := by
    intro p hlt hle
    rw [List.length_append] at hle
    obtain ⟨behind, rfl⟩ := Nat.exists_eq_add_of_le
      (show left.length ≤ p by omega)
    rw [partsFrom_append left right (by omega)]
    exact hstop.above behind (by omega) (by omega)
  reached := by
    right
    rw [partsFrom_append left right hpos]
    exact hstop.reached.resolve_left (Nat.ne_of_gt hpos)

/-- The loop on the text behind the stop runs to its beginning. -/
theorem StopsAt.drop (hstop : StopsAt name stop) (hpos : 0 < stop) :
    StopsAt (name.drop stop) 0 ∧ 0 < partsFrom (name.drop stop) 1 := by
  have hmany := hstop.reached.resolve_left (Nat.ne_of_gt hpos)
  have hlt := hstop.lt (by omega)
  have hbehind : ∀ p, 0 < p →
      partsFrom (name.drop stop) p = partsFrom name (stop + p) := by
    intro p hp
    have happend := partsFrom_append (name.take stop) (name.drop stop) hp
    rw [List.take_append_drop, List.length_take_of_le hstop.le] at happend
    exact happend.symm
  refine ⟨⟨Nat.zero_le _, ?_, Or.inl rfl⟩, ?_⟩
  · intro p hp hle
    rw [List.length_drop] at hle
    rw [hbehind p hp]
    exact hstop.above (stop + p) (by omega) (by omega)
  · rw [hbehind 1 Nat.one_pos]
    have hstep := partsFrom_step hlt
    have htwo := partsAt_le name stop
    omega

theorem StopsAt.preceded (hstop : StopsAt name stop) (hpos : 0 < stop) :
    (name.take stop).getLast? = some '.' := by
  have hmany := hstop.reached.resolve_left (Nat.ne_of_gt hpos)
  have hlt := hstop.lt (by omega)
  have hfew := hstop.above (stop + 1) (Nat.lt_succ_self stop) hlt
  have hstep := partsFrom_step hlt
  obtain ⟨-, hdot⟩ := partsAt_pos_iff.mp
    (show 0 < partsAt name stop by omega)
  rw [List.getLast?_eq_getElem?, List.length_take_of_le hstop.le,
    List.getElem?_take_of_lt (by omega), hdot]

/-- Nothing is left of a name exactly when no dot stands before its last
character. -/
theorem getShortenedName_eq_nil_iff (name : Str) :
    getShortenedName name = [] ↔ '.' ∉ name.dropLast := by
  obtain ⟨stop, hstop, -⟩ := exists_stopsAt name
  rw [hstop.getShortenedName_eq, ← partsFrom_zero_pos_iff]
  by_cases hnone : partsFrom name stop = 0
  · rw [if_pos hnone]
    have hzero : stop = 0 := hstop.reached.resolve_right (by omega)
    rw [hzero] at hnone
    simp [hnone]
  · rw [if_neg hnone]
    have hlt := hstop.lt hnone
    have hsome : 0 < partsFrom name 0 := by
      obtain ⟨p, -, hrest⟩ := partsFrom_pos_iff.mp (Nat.pos_of_ne_zero hnone)
      exact partsFrom_pos_iff.mpr ⟨p, Nat.zero_le p, hrest⟩
    rw [List.drop_eq_nil_iff]
    omega

theorem dot_mem_lowercase_iff :
    '.' ∈ (lowercase name).dropLast ↔ '.' ∈ name.dropLast := by
  rw [lowercase, ← List.map_dropLast, List.mem_map]
  constructor
  · rintro ⟨c, hmem, hlower⟩
    rw [toLower_eq_iff (by decide)] at hlower
    exact hlower ▸ hmem
  · intro hmem
    exact ⟨'.', hmem, rfl⟩

/-- A shortened name is empty when no dot stands before the last character of
the name.  Otherwise it begins at the front or behind a dot, has such a dot
itself and is not shortened any further. -/
theorem getShortenedName_spec (name : Str) :
    (getShortenedName name = [] ↔ '.' ∉ name.dropLast) ∧
      ('.' ∈ name.dropLast →
        (∃ front, name = front ++ getShortenedName name ∧
          (front = [] ∨ front.getLast? = some '.')) ∧
        '.' ∈ (getShortenedName name).dropLast ∧
        getShortenedName (getShortenedName name) = getShortenedName name) := by
  refine ⟨getShortenedName_eq_nil_iff name, ?_⟩
  intro hdot
  obtain ⟨stop, hstop, -⟩ := exists_stopsAt name
  have hsome : getShortenedName name ≠ [] := fun hnil =>
    (getShortenedName_eq_nil_iff name).mp hnil hdot
  have hshort : getShortenedName name = name.drop stop := by
    have heq := hstop.getShortenedName_eq
    split at heq
    · exact absurd heq hsome
    · exact heq
  rcases Nat.eq_zero_or_pos stop with hzero | hpos
  · rw [hzero, List.drop_zero] at hshort
    refine ⟨⟨[], by rw [hshort, List.nil_append], Or.inl rfl⟩, ?_, ?_⟩
    · rw [hshort]
      exact hdot
    · rw [hshort, hshort]
  · obtain ⟨hwhole, hparts⟩ := hstop.drop hpos
    have hown : '.' ∈ (name.drop stop).dropLast :=
      partsFrom_one_pos_iff.mp hparts
    have hcounted := partsFrom_zero_pos_iff.mpr hown
    refine ⟨⟨name.take stop, ?_, Or.inr (hstop.preceded hpos)⟩, ?_, ?_⟩
    · rw [hshort, List.take_append_drop]
    · rw [hshort]
      exact hown
    · rw [hshort, hwhole.getShortenedName_eq,
        if_neg (Nat.ne_of_gt hcounted), List.drop_zero]

/-- Behind a dot, a domain that is long enough and has a dot of its own is as
far as the loop gets. -/
theorem StopsAt.domain {d : Str} (hlength : 7 ≤ d.length)
    (hdot : '.' ∈ d.dropLast) (hstop : StopsAt ('.' :: d) stop) : 0 < stop := by
  have hown : 0 < partsFrom d 1 := partsFrom_one_pos_iff.mpr hdot
  have hlt : 1 < ('.' :: d).length := by
    rw [List.length_cons]
    omega
  have hboundary : partsAt ('.' :: d) 1 = 2 := by
    simp [partsAt, hlength]
  have hrest : partsFrom ('.' :: d) 2 = partsFrom d 1 :=
    partsFrom_append ['.'] d Nat.one_pos
  have hmany : 3 ≤ partsFrom ('.' :: d) 1 := by
    rw [partsFrom_step hlt, hboundary, hrest]
    omega
  rcases Nat.eq_zero_or_pos stop with hzero | hpos
  · have hfew := hstop.above 1 (by omega) (Nat.le_of_lt hlt)
    omega
  · exact hpos

/-- What is left of a host below a domain. -/
theorem getShortenedName_below {d : Str} (hlength : 7 ≤ d.length)
    (hdot : '.' ∈ d.dropLast) (y : Str) :
    getShortenedName (y ++ '.' :: d) = getShortenedName ('.' :: d) ∧
      getShortenedName ('.' :: d) <:+ d ∧
      getShortenedName ('.' :: d) ≠ [] := by
  obtain ⟨stop, hstop, -⟩ := exists_stopsAt ('.' :: d)
  have hpos := hstop.domain hlength hdot
  have hmany := hstop.reached.resolve_left (Nat.ne_of_gt hpos)
  have hlt := hstop.lt (by omega)
  have hown : getShortenedName ('.' :: d) = ('.' :: d).drop stop := by
    rw [hstop.getShortenedName_eq, if_neg (by omega)]
  refine ⟨?_, ?_, ?_⟩
  · rw [(hstop.append hpos y).getShortenedName_eq,
      partsFrom_append y ('.' :: d) hpos, if_neg (by omega), hown,
      List.drop_append, Nat.add_sub_cancel_left,
      List.drop_of_length_le (Nat.le_add_right _ _), List.nil_append]
  · obtain ⟨behind, rfl⟩ := Nat.exists_eq_succ_of_ne_zero
      (Nat.ne_of_gt hpos)
    rw [hown, List.drop_succ_cons]
    exact List.drop_suffix behind d
  · rw [hown, ne_eq, List.drop_eq_nil_iff]
    omega

end IPAddress

namespace Triplet

/-- The shortened name of a request from a host below a domain. -/
theorem shortName_below {d : Str} (hlength : 7 ≤ d.length)
    (hdot : '.' ∈ d.dropLast) (c s r n y : Str) :
    (Triplet.new c s r n (y ++ '.' :: d)).shortName =
        IPAddress.getShortenedName ('.' :: lowercase d) ∧
      IPAddress.getShortenedName ('.' :: lowercase d) ≠ [] := by
  have hlower : '.' ∈ (lowercase d).dropLast :=
    IPAddress.dot_mem_lowercase_iff.mpr hdot
  have hlong : 7 ≤ (lowercase d).length := by
    rwa [lowercase, List.length_map]
  have hname : lowercase (y ++ '.' :: d) = lowercase y ++ '.' :: lowercase d := by
    rw [lowercase, List.map_append, List.map_cons]
    rfl
  obtain ⟨hbelow, -, hne⟩ :=
    IPAddress.getShortenedName_below hlong hlower (lowercase y)
  refine ⟨?_, hne⟩
  rw [shortName, ← hbelow, ← hname]
  rfl

end Triplet

namespace Greylist

/-- A client with a usable name is looked up by it, whatever its address. -/
theorem findQuery_of_named {g : Greylist} (hmode : g.mode = .reverse)
    {t : Triplet} (hname : t.shortName ≠ []) :
    (g.findQuery t).1 = .ok
      { returnFields := returnFields, whereClause := g.conditions t } := by
  have hreverse : (g.lookupMode t).1 = .reverse := by
    rw [lookupMode_fst, modeOf, if_neg fun hboth => hname hboth.2, hmode]
  rcases (g.findQuery_cases t).2 with ⟨e, hfail⟩ | hok
  · rw [findQuery] at hfail
    simp only [hreverse] at hfail
    cases hfail
  · exact hok

/-- All hosts below a domain of at least seven characters with a dot before
the last one have the same shortened name, a suffix of the domain; in the name
mode they are looked up alike, and what is stored for one answers the
others. -/
theorem hosts_share_domain {d : Str} (hlength : 7 ≤ d.length)
    (hdot : '.' ∈ d.dropLast) (y : Str) :
    IPAddress.getShortenedName (y ++ ("." : Str) ++ d) <:+ d ∧
      ∀ other : Str,
        IPAddress.getShortenedName (other ++ ("." : Str) ++ d) =
          IPAddress.getShortenedName (y ++ ("." : Str) ++ d) ∧
        ∀ (g : Greylist) (c c' s r n n' : Str), g.mode = .reverse →
          (g.findQuery (Triplet.new c s r n (y ++ ("." : Str) ++ d))).1 =
            (g.findQuery
              (Triplet.new c' s r n' (other ++ ("." : Str) ++ d))).1 ∧
          g.Answers (Triplet.new c' s r n' (other ++ ("." : Str) ++ d))
            (Triplet.new c s r n (y ++ ("." : Str) ++ d)) := by
  have hjoin : ∀ host : Str, host ++ ("." : Str) ++ d = host ++ '.' :: d :=
    fun host => List.append_assoc host _ d
  obtain ⟨hbelow, hsuffix, -⟩ :=
    IPAddress.getShortenedName_below hlength hdot y
  refine ⟨by rw [hjoin, hbelow]; exact hsuffix, ?_⟩
  intro other
  obtain ⟨hother, -, -⟩ := IPAddress.getShortenedName_below hlength hdot other
  refine ⟨by rw [hjoin, hjoin, hother, hbelow], ?_⟩
  intro g c c' s r n n' hmode
  rw [hjoin, hjoin]
  obtain ⟨hname, hne⟩ := Triplet.shortName_below hlength hdot c s r n y
  obtain ⟨hname', -⟩ := Triplet.shortName_below hlength hdot c' s r n' other
  have hreverse : ∀ t : Triplet, t.shortName ≠ [] → g.modeOf t = .reverse := by
    intro t hsome
    rw [modeOf, if_neg fun hboth => hsome hboth.2, hmode]
  have husable := hname.symm ▸ hne
  have husable' := hname'.symm ▸ hne
  refine ⟨?_, rfl, rfl, ?_⟩
  · rw [findQuery_of_named hmode husable, findQuery_of_named hmode husable']
    simp only [conditions, hreverse _ husable, hreverse _ husable', hname,
      hname', if_true]
    rfl
  · rw [if_pos (hreverse _ husable), hname, hname']

namespace DomainWitness

theorem hosts_of_example :
    IPAddress.getShortenedName
        ("mrout1".toList ++ ("." : Str) ++ "example.org".toList) <:+
        "example.org".toList ∧
      IPAddress.getShortenedName
          ("web.mail".toList ++ ("." : Str) ++ "example.org".toList) =
        IPAddress.getShortenedName
          ("mrout1".toList ++ ("." : Str) ++ "example.org".toList) := by
  obtain ⟨hsuffix, hshared⟩ := hosts_share_domain
    (show 7 ≤ "example.org".toList.length by decide)
    (show '.' ∈ "example.org".toList.dropLast by decide) "mrout1".toList
  exact ⟨hsuffix, (hshared "web.mail".toList).1⟩

end DomainWitness

end Greylist

end GreylistServer
