/-
The resolved name of a client.  Two accessors share the resolved name, the
error text and the shortened name, each filled by the first call that needs it.
A name that was given or resolved is shown by every call.  A failed call of the
resolver leaves whatever its buffer held in the place of the name, and later
calls show that.
-/
import GreylistServer.AddressNames

namespace GreylistServer

/-- The two accessors of the resolved name. -/
inductive NameCall where
  | getReverseName
  | getShortReverseName
deriving Repr, DecidableEq

namespace IPAddress

def perform (dns : Nat → Resolution) (ip : IPAddress) :
    NameCall → Str × IPAddress
  | .getReverseName => ip.getReverseName dns
  | .getShortReverseName => ip.getShortReverseName dns

/-- The object after some calls. -/
def afterNames (dns : Nat → Resolution) (ip : IPAddress)
    (calls : List NameCall) : IPAddress :=
  calls.foldl (fun ip call => (ip.perform dns call).2) ip

/-- Each accessor takes its own of the two texts. -/
def picked (name short : Str) : NameCall → Str
  | .getReverseName => name
  | .getShortReverseName => short

/-- What an accessor shows of a name. -/
def shown (name : Str) : NameCall → Str :=
  picked name (getShortenedName name)

/-- What an accessor stores as the shortened name when it has had the name
resolved. -/
def kept (name : Str) : NameCall → Str :=
  picked [] (getShortenedName name)

theorem kept_nil (call : NameCall) : kept [] call = [] := by
  cases call <;> rfl

/-- The object has a name, given or resolved. -/
structure Named (name : Str) (ip : IPAddress) : Prop where
  reverse : ip.reverse = name
  nonempty : name ≠ []
  silent : ip.resolve_error = []
  short : ip.short_reverse = [] ∨ ip.short_reverse = getShortenedName name

/-- The resolver has failed and left a text behind. -/
structure Failed (name short : Str) (ip : IPAddress) : Prop where
  reverse : ip.reverse = name
  told : ip.resolve_error ≠ []
  short : ip.short_reverse = short

/-- There is no name yet. -/
structure Unresolved (ip : IPAddress) : Prop where
  reverse : ip.reverse = []
  silent : ip.resolve_error = []
  short : ip.short_reverse = []

variable {dns : Nat → Resolution} {ip : IPAddress} {name short : Str}

theorem Named.perform (hnamed : Named name ip) (dns : Nat → Resolution)
    (call : NameCall) :
    (ip.perform dns call).1 = shown name call ∧
      Named name (ip.perform dns call).2 ∧
      (ip.perform dns call).2.lookups = ip.lookups := by
  have hreverse := hnamed.reverse
  have hne : ip.reverse ≠ [] := hreverse ▸ hnamed.nonempty
  cases call with
  | getReverseName =>
      have heq : ip.getReverseName dns = (ip.reverse, ip) := by
        rw [getReverseName, if_neg (not_not.mpr hnamed.silent), if_pos hne]
      rw [IPAddress.perform, heq]
      exact ⟨hreverse, hnamed, rfl⟩
  | getShortReverseName =>
      rw [IPAddress.perform, getShortReverseName]
      by_cases hshort : ip.short_reverse = []
      · rw [if_neg (not_not.mpr hshort), if_neg (not_not.mpr hnamed.silent)]
        simp only [if_neg hne]
        refine ⟨congrArg getShortenedName hreverse, ?_, trivial⟩
        exact ⟨hreverse, hnamed.nonempty, hnamed.silent,
          Or.inr (congrArg getShortenedName hreverse)⟩
      · rw [if_pos hshort]
        exact ⟨hnamed.short.resolve_left hshort, hnamed, rfl⟩

theorem Failed.perform (hfailed : Failed name short ip)
    (dns : Nat → Resolution) (call : NameCall) :
    ip.perform dns call = (picked name short call, ip) := by
  cases call with
  | getReverseName =>
      rw [IPAddress.perform, getReverseName, if_pos hfailed.told,
        hfailed.reverse]
      rfl
  | getShortReverseName =>
      rw [IPAddress.perform, getShortReverseName, if_pos hfailed.told,
        ite_self, hfailed.short]
      rfl

theorem resolve_lookups (dns : Nat → Resolution) (ip : IPAddress) :
    (ip.resolve dns).lookups = ip.lookups + 1 ∧
      (ip.resolve dns).short_reverse = ip.short_reverse := by
  rw [resolve]
  cases dns ip.lookups <;> exact ⟨rfl, rfl⟩

theorem Unresolved.perform (hnone : Unresolved ip) (dns : Nat → Resolution)
    (call : NameCall) :
    (ip.perform dns call).1 = shown (ip.resolve dns).reverse call ∧
      (ip.perform dns call).2.reverse = (ip.resolve dns).reverse ∧
      (ip.perform dns call).2.resolve_error =
        (ip.resolve dns).resolve_error ∧
      (ip.perform dns call).2.short_reverse =
        kept (ip.resolve dns).reverse call ∧
      (ip.perform dns call).2.lookups = ip.lookups + 1 := by
  obtain ⟨hlookups, hshort⟩ := resolve_lookups dns ip
  rw [hnone.short] at hshort
  cases call with
  | getReverseName =>
      have heq : ip.getReverseName dns =
          ((ip.resolve dns).reverse, ip.resolve dns) := by
        rw [getReverseName, if_neg (not_not.mpr hnone.silent),
          if_neg (not_not.mpr hnone.reverse)]
      rw [IPAddress.perform, heq]
      exact ⟨rfl, rfl, rfl, hshort, hlookups⟩
  | getShortReverseName =>
      rw [IPAddress.perform, getShortReverseName,
        if_neg (not_not.mpr hnone.short), if_neg (not_not.mpr hnone.silent)]
      simp only [hnone.reverse, if_true]
      by_cases hempty : (ip.resolve dns).reverse = []
      · rw [if_pos hempty, hempty]
        exact ⟨hshort, rfl, rfl, hshort, hlookups⟩
      · rw [if_neg hempty]
        exact ⟨rfl, rfl, rfl, rfl, hlookups⟩

theorem ne_empty_of_failure {k : Nat} {message buffer : Str}
    (hsaid : dns k = .failure message buffer) : dns k ≠ .name [] := by
  rw [hsaid]
  rintro ⟨⟩

theorem Named.ne_empty {k : Nat} {host : Str}
    (hnamed : Named (lowercase host) ip) (hsaid : dns k = .name host) :
    dns k ≠ .name [] := by
  rw [hsaid]
  rintro ⟨⟩
  exact hnamed.nonempty rfl

/-- What the resolver has come to say by the given call: only an empty name is
asked for again. -/
def outcome (dns : Nat → Resolution) : Nat → Resolution
  | 0 => dns 0
  | call + 1 =>
      if outcome dns call = .name [] then dns (call + 1)
      else outcome dns call

theorem outcome_of_empty {k : Nat} (hempty : ∀ i < k, dns i = .name []) :
    outcome dns k = dns k := by
  induction k with
  | zero => rfl
  | succ k ih =>
      have hbefore : outcome dns k = .name [] := by
        rw [ih fun i hi => hempty i (Nat.lt_succ_of_lt hi)]
        exact hempty k (Nat.lt_succ_self k)
      rw [outcome, if_pos hbefore]

theorem outcome_of_said {k j : Nat} (hempty : ∀ i < k, dns i = .name [])
    (hsaid : dns k ≠ .name []) (hle : k ≤ j) : outcome dns j = dns k := by
  induction j, hle using Nat.le_induction with
  | base => exact outcome_of_empty hempty
  | succ j hle ih => rw [outcome, ih, if_neg hsaid]

theorem empty_of_outcome {j : Nat} (hempty : outcome dns j = .name []) :
    ∀ i < j + 1, dns i = .name [] := by
  induction j with
  | zero =>
      intro i hi
      rw [Nat.lt_one_iff.mp hi]
      exact hempty
  | succ j ih =>
      rw [outcome] at hempty
      split at hempty
      · next hbefore =>
          intro i hi
          rcases Nat.lt_succ_iff_lt_or_eq.mp hi with hlt | rfl
          · exact ih hbefore i hlt
          · exact hempty
      · next hsaid => exact absurd hempty hsaid

theorem exists_of_outcome {j : Nat} {message buffer : Str}
    (hsaid : outcome dns j = .failure message buffer) :
    ∃ k, k ≤ j ∧ (∀ i < k, dns i = .name []) ∧
      dns k = .failure message buffer := by
  induction j with
  | zero => exact ⟨0, Nat.le_refl 0, fun i hi => absurd hi (by omega), hsaid⟩
  | succ j ih =>
      rw [outcome] at hsaid
      split at hsaid
      · next hbefore =>
          exact ⟨j + 1, Nat.le_refl _, empty_of_outcome hbefore, hsaid⟩
      · obtain ⟨k, hle, hrest⟩ := ih hsaid
        exact ⟨k, Nat.le_succ_of_le hle, hrest⟩

/-- What the object holds after the first `j` calls, when no name was given. -/
inductive Reached (dns : Nat → Resolution) (calls : List NameCall) (j : Nat)
    (ip : IPAddress) : Prop where
  | waiting (hnone : Unresolved ip) (hlookups : ip.lookups = j)
      (hempty : ∀ i < j, dns i = .name [])
  | named (k : Nat) (host : Str) (hlt : k < j)
      (hempty : ∀ i < k, dns i = .name []) (hsaid : dns k = .name host)
      (hnamed : Named (lowercase host) ip) (hlookups : ip.lookups = k + 1)
  | failed (k : Nat) (message buffer : Str) (call : NameCall) (hlt : k < j)
      (hempty : ∀ i < k, dns i = .name [])
      (hsaid : dns k = .failure message buffer) (hcall : calls[k]? = some call)
      (hfailed : Failed (lowercase buffer) (kept (lowercase buffer) call) ip)
      (hlookups : ip.lookups = k + 1)

variable {calls : List NameCall} {call : NameCall} {j : Nat}

theorem lowercase_eq_nil_iff {text : Str} : lowercase text = [] ↔ text = [] :=
  List.map_eq_nil_iff

/-- One call more. -/
theorem Reached.perform (hreached : Reached dns calls j ip)
    (hcall : calls[j]? = some call) :
    Reached dns calls (j + 1) (ip.perform dns call).2 := by
  cases hreached with
  | waiting hnone hlookups hempty =>
      obtain ⟨-, hreverse, herror, hshort, hcount⟩ := hnone.perform dns call
      rw [resolve, hlookups] at hreverse herror hshort
      rw [hlookups] at hcount
      cases hsaid : dns j with
      | name host =>
          rw [hsaid] at hreverse herror hshort
          by_cases hhost : host = []
          · rw [hhost] at hsaid hreverse hshort
            refine .waiting ⟨hreverse, herror.trans hnone.silent, ?_⟩ hcount ?_
            · rw [hshort]
              exact kept_nil call
            · intro i hi
              rcases Nat.lt_succ_iff_lt_or_eq.mp hi with hlt | rfl
              · exact hempty i hlt
              · exact hsaid
          · refine .named j host (Nat.lt_succ_self j) hempty hsaid
              ⟨hreverse, mt lowercase_eq_nil_iff.mp hhost,
                herror.trans hnone.silent, ?_⟩ hcount
            rw [hshort]
            cases call with
            | getReverseName => exact Or.inl rfl
            | getShortReverseName => exact Or.inr rfl
      | failure message buffer =>
          rw [hsaid] at hreverse herror hshort
          refine .failed j message buffer call (Nat.lt_succ_self j) hempty hsaid
            hcall ⟨hreverse, ?_, hshort⟩ hcount
          rw [herror]
          simp
  | named k host hlt hempty hsaid hnamed hlookups =>
      obtain ⟨-, hafter, hcount⟩ := hnamed.perform dns call
      exact .named k host (Nat.lt_succ_of_lt hlt) hempty hsaid hafter
        (hcount.trans hlookups)
  | failed k message buffer first hlt hempty hsaid hfirst hfailed hlookups =>
      rw [hfailed.perform]
      exact .failed k message buffer first (Nat.lt_succ_of_lt hlt) hempty hsaid
        hfirst hfailed hlookups

theorem afterNames_take_succ (dns : Nat → Resolution) (ip : IPAddress)
    (hcall : calls[j]? = some call) :
    ip.afterNames dns (calls.take (j + 1)) =
      ((ip.afterNames dns (calls.take j)).perform dns call).2 := by
  rw [List.take_add_one, hcall, afterNames, List.foldl_append]
  rfl

theorem afterNames_reached (dns : Nat → Resolution) (c cn : Str)
    (calls : List NameCall) (hle : j ≤ calls.length) :
    Reached dns calls j ((new c [] cn).afterNames dns (calls.take j)) := by
  induction j with
  | zero =>
      exact .waiting ⟨rfl, rfl, rfl⟩ rfl fun i hi =>
        absurd hi (Nat.not_lt_zero i)
  | succ j ih =>
      have hcall := List.getElem?_eq_getElem (Nat.lt_of_succ_le hle)
      rw [afterNames_take_succ dns _ hcall]
      exact (ih (Nat.le_of_lt hle)).perform hcall

theorem afterNames_given (dns : Nat → Resolution) (c cn : Str) {n : Str}
    (hn : n ≠ []) (calls : List NameCall) :
    Named (lowercase n) ((new c n cn).afterNames dns calls) ∧
      ((new c n cn).afterNames dns calls).lookups = 0 := by
  induction calls using List.reverseRecOn with
  | nil =>
      exact ⟨⟨rfl, mt lowercase_eq_nil_iff.mp hn, rfl, Or.inl rfl⟩, rfl⟩
  | append_singleton calls call ih =>
      obtain ⟨-, hafter, hcount⟩ := ih.1.perform dns call
      rw [afterNames, List.foldl_append]
      exact ⟨hafter, hcount.trans ih.2⟩

theorem eq_of_first_said {k first : Nat} (hempty : ∀ i < k, dns i = .name [])
    (hsaid : dns k ≠ .name []) (hbefore : ∀ i < first, dns i = .name [])
    (hfirst : dns first ≠ .name []) : k = first := by
  rcases Nat.lt_trichotomy k first with hlt | heq | hgt
  · exact absurd (hbefore k hlt) hsaid
  · exact heq
  · exact absurd (hempty first hgt) hfirst

/-- The answer after the resolver has given a name. -/
theorem Reached.answer_of_name (hreached : Reached dns calls j ip)
    (call : NameCall) {host : Str} (hsaid : outcome dns j = .name host) :
    (ip.perform dns call).1 = shown (lowercase host) call := by
  cases hreached with
  | waiting hnone hlookups hempty =>
      rw [outcome_of_empty hempty] at hsaid
      have hanswer := (hnone.perform dns call).1
      rwa [resolve, hlookups, hsaid] at hanswer
  | named k other hlt hempty hother hnamed hlookups =>
      rw [outcome_of_said hempty (hnamed.ne_empty hother)
        (Nat.le_of_lt hlt), hother] at hsaid
      cases hsaid
      exact (hnamed.perform dns call).1
  | failed k message buffer first hlt hempty hother hfirst hfailed hlookups =>
      rw [outcome_of_said hempty (ne_empty_of_failure hother)
        (Nat.le_of_lt hlt), hother] at hsaid
      cases hsaid

/-- The answer after the resolver has failed: the text it left, or what the
call that met the failure has made of it. -/
theorem Reached.answer_of_failure (hreached : Reached dns calls j ip)
    (hcall : calls[j]? = some call) {k : Nat} {message buffer : Str}
    {first : NameCall} (hle : k ≤ j) (hempty : ∀ i < k, dns i = .name [])
    (hsaid : dns k = .failure message buffer)
    (hfirst : calls[k]? = some first) :
    (ip.perform dns call).1 =
        picked (lowercase buffer) (kept (lowercase buffer) first) call ∧
      (ip.perform dns call).2.resolve_error ≠ [] := by
  have hne := ne_empty_of_failure hsaid
  cases hreached with
  | waiting hnone hlookups hbefore =>
      have heq : k = j := by
        rcases Nat.eq_or_lt_of_le hle with heq | hlt
        · exact heq
        · exact absurd (hbefore k hlt) hne
      subst heq
      rw [hcall] at hfirst
      cases hfirst
      obtain ⟨hanswer, -, herror, -, -⟩ := hnone.perform dns call
      rw [resolve, hlookups, hsaid] at hanswer herror
      refine ⟨?_, ?_⟩
      · rw [hanswer]
        cases call <;> rfl
      · rw [herror]
        simp
  | named other host hlt hbefore hother hnamed hlookups =>
      rw [eq_of_first_said hempty hne hbefore (hnamed.ne_empty hother),
        hother] at hsaid
      cases hsaid
  | failed other text left call' hlt hbefore hother hcall' hfailed hlookups =>
      have heq := eq_of_first_said hempty hne hbefore
        (ne_empty_of_failure hother)
      subst heq
      rw [hsaid] at hother
      cases hother
      rw [hfirst] at hcall'
      cases hcall'
      rw [hfailed.perform]
      exact ⟨rfl, hfailed.told⟩

/-- A call as it is promised: the resolved name or its shortened form, and
after a failure nothing, with the error set. -/
def AsPromised (dns : Nat → Resolution) (j : Nat) (call : NameCall)
    (ip : IPAddress) : Prop :=
  match outcome dns j with
  | .name host => (ip.perform dns call).1 = shown (lowercase host) call
  | .failure _ _ => (ip.perform dns call).1 = [] ∧
      (ip.perform dns call).2.resolve_error ≠ []

/-- What a sequence of calls should do: without a given name every call answers
as promised, and nothing is asked once the resolver has failed or returned a
name. -/
structure NamesSound (dns : Nat → Resolution) (c n cn : Str)
    (calls : List NameCall) : Prop where
  promised : n = [] → ∀ j call, calls[j]? = some call →
    AsPromised dns j call ((new c n cn).afterNames dns (calls.take j))
  asked : ∀ k, dns k ≠ .name [] →
    ((new c n cn).afterNames dns calls).lookups ≤ k + 1

/-- The calls from the failed one on show nothing of what it left behind. -/
def Hidden (buffer : Str) (calls : List NameCall) : Prop :=
  buffer = [] ∨ ((∀ call ∈ calls, call = .getShortReverseName) ∧
    '.' ∉ buffer.dropLast)

theorem Reached.lookups_le (hreached : Reached dns calls j ip) {k : Nat}
    (hsaid : dns k ≠ .name []) : ip.lookups ≤ k + 1 := by
  have hbehind : ∀ {first : Nat}, (∀ i < first, dns i = .name []) →
      first ≤ k := fun hempty =>
    Nat.le_of_not_lt fun hlt => hsaid (hempty k hlt)
  cases hreached with
  | waiting hnone hlookups hempty =>
      have hle := hbehind hempty
      omega
  | named first host hlt hempty hother hnamed hlookups =>
      have hle := hbehind hempty
      omega
  | failed first message buffer call hlt hempty hother hcall hfailed
      hlookups =>
      have hle := hbehind hempty
      omega

theorem Hidden.answer_eq_nil {buffer : Str} {k : Nat}
    (hhidden : Hidden buffer (calls.drop k)) (hcall : call ∈ calls.drop k)
    (first : NameCall) :
    picked (lowercase buffer) (kept (lowercase buffer) first) call = [] := by
  rcases hhidden with rfl | ⟨hshort, hdot⟩
  · cases call with
    | getReverseName => rfl
    | getShortReverseName => exact kept_nil first
  · rw [hshort call hcall]
    cases first with
    | getReverseName => rfl
    | getShortReverseName =>
        exact (getShortenedName_eq_nil_iff _).mpr
          (mt dot_mem_lowercase_iff.mp hdot)

/-- When every call answers as promised, what a failure left behind shows in
none of them. -/
theorem NamesSound.hidden {c cn : Str} (hsound : NamesSound dns c [] cn calls)
    {k : Nat} {message buffer : Str} (hempty : ∀ i < k, dns i = .name [])
    (hsaid : dns k = .failure message buffer) (hlt : k < calls.length) :
    Hidden buffer (calls.drop k) := by
  have hfirst := List.getElem?_eq_getElem hlt
  have hanswers : ∀ j call, k ≤ j → calls[j]? = some call →
      picked (lowercase buffer) (kept (lowercase buffer) calls[k]) call =
        [] := by
    intro j call hle hcall
    have hlength := (List.getElem?_eq_some_iff.mp hcall).1
    have hreached := afterNames_reached dns c cn calls (Nat.le_of_lt hlength)
    have hpromised := hsound.promised rfl j call hcall
    rw [AsPromised, outcome_of_said hempty (ne_empty_of_failure hsaid) hle,
      hsaid] at hpromised
    rw [← (hreached.answer_of_failure hcall hle hempty hsaid hfirst).1]
    exact hpromised.1
  by_cases hbuffer : buffer = []
  · exact Or.inl hbuffer
  · right
    have hshort : ∀ j call, k ≤ j → calls[j]? = some call →
        call = .getShortReverseName := by
      intro j call hle hcall
      have hanswer := hanswers j call hle hcall
      cases call with
      | getReverseName =>
          exact absurd (lowercase_eq_nil_iff.mp hanswer) hbuffer
      | getShortReverseName => rfl
    refine ⟨?_, ?_⟩
    · intro call hcall
      obtain ⟨i, hi⟩ := List.mem_iff_getElem?.mp hcall
      rw [List.getElem?_drop] at hi
      exact hshort (k + i) call (Nat.le_add_right k i) hi
    · have hanswer := hanswers k calls[k] (Nat.le_refl k) hfirst
      rw [hshort k calls[k] (Nat.le_refl k) hfirst] at hanswer
      exact mt dot_mem_lowercase_iff.mpr
        ((getShortenedName_eq_nil_iff _).mp hanswer)

/-- A call answers as promised when nothing a failure left behind is shown. -/
theorem Reached.asPromised (hreached : Reached dns calls j ip)
    (hcall : calls[j]? = some call)
    (hhidden : ∀ k message buffer, (∀ i < k, dns i = .name []) →
      dns k = .failure message buffer → k < calls.length →
      Hidden buffer (calls.drop k)) :
    AsPromised dns j call ip := by
  have hlength := (List.getElem?_eq_some_iff.mp hcall).1
  rw [AsPromised]
  split
  · next host hsaid => exact hreached.answer_of_name call hsaid
  · next message buffer hsaid =>
      obtain ⟨k, hle, hempty, hfailure⟩ := exists_of_outcome hsaid
      have hlt := Nat.lt_of_le_of_lt hle hlength
      obtain ⟨hanswer, herror⟩ := hreached.answer_of_failure hcall hle hempty
        hfailure (List.getElem?_eq_getElem hlt)
      have hbehind : call ∈ calls.drop k := by
        apply List.mem_iff_getElem?.mpr
        refine ⟨j - k, ?_⟩
        rw [List.getElem?_drop, Nat.add_sub_cancel' hle, hcall]
      refine ⟨?_, herror⟩
      rw [hanswer]
      exact (hhidden k message buffer hempty hfailure hlt).answer_eq_nil
        hbehind calls[k]

/-- A sequence of calls does so exactly when a name was given, the resolver
does not fail, or nothing of what a failure left behind is shown. -/
theorem namesSound_iff (dns : Nat → Resolution) (c n cn : Str)
    (calls : List NameCall) :
    NamesSound dns c n cn calls ↔
      n ≠ [] ∨ ∀ k message buffer, (∀ i < k, dns i = .name []) →
        dns k = .failure message buffer → k < calls.length →
        Hidden buffer (calls.drop k) := by
  by_cases hn : n = []
  · subst hn
    constructor
    · intro hsound
      right
      intro k message buffer hempty hsaid hlt
      exact hsound.hidden hempty hsaid hlt
    · intro hcondition
      have hhidden := hcondition.resolve_left (not_not.mpr rfl)
      have hall := afterNames_reached dns c cn calls (Nat.le_refl _)
      rw [List.take_length] at hall
      refine ⟨?_, fun k hsaid => hall.lookups_le hsaid⟩
      intro _ j call hcall
      have hlength := (List.getElem?_eq_some_iff.mp hcall).1
      have hreached := afterNames_reached dns c cn calls (Nat.le_of_lt hlength)
      exact hreached.asPromised hcall hhidden
  · refine iff_of_true ⟨fun hnil => absurd hnil hn, ?_⟩ (Or.inl hn)
    intro k hsaid
    rw [(afterNames_given dns c cn hn calls).2]
    exact Nat.zero_le _

namespace ReverseWitness

/-- A resolver that fails and has left a text in its buffer. -/
def failing (_ : Nat) : Resolution :=
  .failure "Name or service not known" "Left.Over.Text"

/-- The text is shown in the place of the name. -/
theorem buffer_shown_after_failure :
    ¬ NamesSound failing "192.0.2.1" [] [] [.getReverseName] ∧
      ((new "192.0.2.1" [] []).getReverseName failing).1 =
        "left.over.text".toList := by
  have hshown : ((new "192.0.2.1" [] []).getReverseName failing).1 =
      "left.over.text".toList := by
    decide
  refine ⟨?_, hshown⟩
  intro hsound
  have hpromised := hsound.promised rfl 0 .getReverseName rfl
  exact absurd (hshown.symm.trans hpromised.1) (by decide)

end ReverseWitness

end IPAddress

end GreylistServer
