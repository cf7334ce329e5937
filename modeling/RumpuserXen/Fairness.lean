import RumpuserXen.Frame
import RumpuserXen.Lists

/-
  Round robin

  The selection loop of `schedule()` takes the first eligible thread of the
  run list and moves it to the tail; `create_thread` appends at the tail and
  `exit_thread` removes its caller. So the threads ahead of a thread `T` on
  the run list only ever leave, and each pass that finds `T` eligible and
  does not select it moves one of them behind it.

  What is proved:
    1. `ahead_append`, `ahead_erase`, `ahead_rotate` and `find_due_ahead`:
       the threads ahead of `T` under the list operations of sched.c;
    2. `ahead_step` and `pass_ahead`: what a step and a pass do to them;
    3. `round_robin`: over a run whose every pass finds `T` eligible, the
       passes before the first that selects `T` select distinct threads, each
       ahead of `T` when the run began; so `T` is selected within `p + 1`
       passes, `p` the number of threads ahead of it; and when the same `k`
       threads are eligible at each of `k` passes, the passes select each of
       them once.
-/

namespace RumpuserXen

/-! ## The threads ahead of `T` on the run list -/

section
variable {T : Tid}

/-- `create_thread` appends behind `T`. -/
theorem ahead_append {l : List Tid} (h : T ∈ l) (m : List Tid) :
    (l ++ m).takeWhile (· ≠ T) = l.takeWhile (· ≠ T) := by
  induction l with
  | nil => cases h
  | cons x l ih =>
    by_cases hx : x = T
    · simp [hx]
    · simpa [hx] using ih ((List.mem_cons.1 h).resolve_left (Ne.symm hx))

/-- `exit_thread` of a thread other than `T` removes at most one thread ahead of it. -/
theorem ahead_erase {c : Tid} (hc : c ≠ T) :
    ∀ l : List Tid, ((l.erase c).takeWhile (· ≠ T)).Sublist (l.takeWhile (· ≠ T))
  | [] => by simp
  | x :: l => by
    by_cases hx : x = c
    · subst hx; simp [hc]
    · rw [List.erase_cons_tail (by simpa using hx)]
      by_cases hxT : x = T
      · simp [hxT]
      · simpa [hxT] using (ahead_erase hc l).cons₂ x

/-- The pass that selects `n`, ahead of `T`, moves it behind `T`. -/
theorem ahead_rotate {n : Tid} : ∀ {l : List Tid}, n ∈ l.takeWhile (· ≠ T) →
    (l.erase n).takeWhile (· ≠ T) = (l.takeWhile (· ≠ T)).erase n
  | [], h => by simp at h
  | x :: l, h => by
    by_cases hxT : x = T
    · simp [hxT] at h
    · by_cases hx : x = n
      · subst hx; simp [hxT]
      · have h' : n ∈ l.takeWhile (· ≠ T) := by simpa [hxT, Ne.symm hx] using h
        rw [List.erase_cons_tail (by simpa using hx)]
        have := ahead_rotate h'
        simp only [ne_eq, decide_not] at this
        simp [hxT, this, List.erase_cons_tail (by simpa using hx : ¬(x == n) = true)]

/-- The first due thread of a list where `T` is due is `T` or ahead of it. -/
theorem find_due_ahead {p : Tid → Bool} (hT : p T = true) : ∀ {l : List Tid} {n : Tid}, T ∈ l →
    l.find? p = some n → n = T ∨ n ∈ l.takeWhile (· ≠ T)
  | [], _, h, _ => by cases h
  | x :: l, n, h, hf => by
    by_cases hxT : x = T
    · subst hxT; simp_all
    · by_cases hx : p x = true
      · simp only [List.find?_cons, hx, Option.some.injEq] at hf
        subst hf; simp [hxT]
      · simp only [List.find?_cons, hx] at hf
        rcases find_due_ahead hT ((List.mem_cons.1 h).resolve_left (Ne.symm hxT)) hf with h' | h'
        · exact .inl h'
        · exact .inr (by simp only [ne_eq, decide_not] at h'; simp [hxT, h'])

/-- A list whose prefix of elements satisfying `q` is at most `p` long has an
element outside `q` among its first `p + 1`. -/
theorem exists_take_of_takeWhile {α : Type} {q : α → Bool} :
    ∀ {l : List α} {p : Nat}, (l.takeWhile q).length ≤ p → p < l.length → ∃ x ∈ l.take (p + 1), q x = false
  | [], _, _, h2 => by simp at h2
  | x :: l, p, h1, h2 => by
    cases hx : q x
    · exact ⟨x, by simp, hx⟩
    · simp only [List.takeWhile_cons, hx, if_true, List.length_cons] at h1
      obtain ⟨p, rfl⟩ : ∃ p', p = p' + 1 := ⟨p - 1, by omega⟩
      obtain ⟨y, hy, hq⟩ := exists_take_of_takeWhile (q := q) (l := l) (p := p) (by omega) (by simpa using h2)
      exact ⟨y, by simp [hy], hq⟩

end

namespace Sys

/-- Thread `t` can be selected: it is on the run list, and runnable or past
its deadline. -/
def eligible (s : Sys) (t : Tid) : Bool := decide (t ∈ s.runq) && (s.th t).due s.now

/-- The threads ahead of `t` on the run list. -/
def ahead (s : Sys) (t : Tid) : List Tid := s.runq.takeWhile (· ≠ t)

/-- The states at which the passes of a run start, in order. -/
def passStates : Sys → List Act → List Sys
  | _, [] => []
  | s, a :: as =>
    match step s a with
    | none => []
    | some s' => (if a = .pass then [s] else []) ++ passStates s' as

/-- The threads the passes of a run select, in order. -/
def selections (s : Sys) (as : List Act) : List (Option Tid) := (s.passStates as).map selected

section
variable {s s' : Sys} {T : Tid}

theorem passStates_cons {a : Act} {as : List Act} (h : step s a = some s') :
    s.passStates (a :: as) = (if a = .pass then [s] else []) ++ s'.passStates as := by
  simp [passStates, h]

theorem selected_eligible {n : Tid} (h : s.selected = some n) : s.eligible n = true := by
  simp [eligible, scan_mem h, scan_due h]

/-- A pass that finds `T` eligible selects `T` or a thread ahead of it. -/
theorem selected_of_eligible (h : s.eligible T = true) :
    ∃ n, s.selected = some n ∧ (n = T ∨ n ∈ s.ahead T) := by
  simp only [eligible, Bool.and_eq_true, decide_eq_true_eq] at h
  obtain ⟨n, hn⟩ : ∃ n, s.selected = some n := Option.isSome_iff_exists.1 (by
    rw [selected, scan_sel, List.find?_isSome]; exact ⟨T, h.1, h.2⟩)
  exact ⟨n, hn, find_due_ahead h.2 h.1 (by rwa [selected, scan_sel] at hn)⟩

theorem pass_runq {n : Tid} (h : s.selected = some n) : s.pass.runq = s.runq.erase n ++ [n] := by
  obtain ⟨e, l, hp, -⟩ := pass_some_eq h
  rw [hp]; rfl

/-- **A pass that selects a thread ahead of `T`** moves it behind `T`. -/
theorem pass_ahead {n : Tid} (hsel : s.selected = some n) (hn : n ∈ s.ahead T) (hT : T ∈ s.runq) :
    T ∈ s.pass.runq ∧ s.pass.ahead T = (s.ahead T).erase n := by
  have hnT : n ≠ T := by simpa using List.mem_takeWhile_imp hn
  have hT' : T ∈ s.runq.erase n := (List.mem_erase_of_ne (Ne.symm hnT)).2 hT
  refine ⟨by rw [pass_runq hsel]; exact List.mem_append_left _ hT', ?_⟩
  rw [ahead, pass_runq hsel, ahead_append hT', ahead_rotate hn]; rfl

/-- **Any other step** takes threads from ahead of `T`, or `T` off the run list. -/
theorem ahead_step (hl : ListInv s) (hT : T ∈ s.runq) {a : Act} (ha : a ≠ .pass)
    (h : step s a = some s') (hT' : T ∈ s'.runq) : (s'.ahead T).Sublist (s.ahead T) := by
  cases listsMove_of_step (hl.not_run_exitDead _) h with
  | keep hk _ => rw [ahead, hk.runq]; rfl
  | create cookie k stack _ _ hk _ => rw [ahead, hk.runq, createThread_runq, ahead_append hT]; rfl
  | exit _ he =>
    have hc : s.cur ≠ T := fun e => by
      rw [he.runq, e] at hT'; exact (List.Nodup.not_mem_erase hl.runq_nodup) hT'
    rw [ahead, he.runq]; exact ahead_erase hc s.runq
  | pass ha' => exact absurd ha' ha

/-- A thread of the run list other than the running one stays on it: only
`exit_thread` takes a thread off, its caller, and a pass rotates the list. -/
theorem mem_runq_step (hl : ListInv s) (hT : T ∈ s.runq) (hc : T ≠ s.cur) {a : Act}
    (h : step s a = some s') : T ∈ s'.runq := by
  cases listsMove_of_step (hl.not_run_exitDead _) h with
  | keep hk _ => exact hk.runq ▸ hT
  | create _ _ _ _ _ hk _ => simp [hk.runq, hT]
  | exit _ he => rw [he.runq]; exact (List.mem_erase_of_ne hc).2 hT
  | pass _ hs _ =>
    subst hs
    cases hsel : s.selected with
    | none => rw [pass_none hsel]; exact hT
    | some n =>
      rw [pass_runq hsel]
      by_cases hn : T = n
      · simp [hn]
      · exact List.mem_append_left _ ((List.mem_erase_of_ne hn).2 hT)

/-- A thread `create_thread` returned that left the run list never comes back. -/
theorem gone_step (hl : ListInv s) (hT : T < s.nextTid) (hn : T ∉ s.runq) {a : Act}
    (h : step s a = some s') : T < s'.nextTid ∧ T ∉ s'.runq := by
  cases listsMove_of_step (hl.not_run_exitDead _) h with
  | keep hk _ => exact ⟨hk.nextTid ▸ hT, hk.runq ▸ hn⟩
  | create cookie k stack _ _ hk _ =>
    rw [hk.nextTid, hk.runq]
    simp only [createThread_nextTid, archCreateThread_nextTid, createThread_runq, List.mem_append,
      List.mem_singleton, not_or]
    exact ⟨Nat.lt_succ_of_lt hT, hn, Nat.ne_of_lt hT⟩
  | exit _ he => exact ⟨he.nextTid ▸ hT, fun h' => hn (List.mem_of_mem_erase (he.runq ▸ h'))⟩
  | pass _ hs _ =>
    subst hs
    refine ⟨(pass_nextTid s).symm ▸ hT, ?_⟩
    cases hsel : s.selected with
    | none => rw [pass_none hsel]; exact hn
    | some n =>
      rw [pass_runq hsel]
      simp only [List.mem_append, List.mem_singleton, not_or]
      exact ⟨fun h' => hn (List.mem_of_mem_erase h'), fun e => hn (e ▸ scan_mem hsel)⟩

theorem passStates_gone : ∀ (as : List Act) {s : Sys}, Reachable s → T < s.nextTid → T ∉ s.runq →
    ∀ p ∈ s.passStates as, T ∉ p.runq
  | [], _, _, _, _, p, hp => by simp [passStates] at hp
  | a :: as, s, hr, hT, hn, p, hp => by
    cases h : step s a with
    | none => simp [passStates, h] at hp
    | some s' =>
      rw [passStates_cons h, List.mem_append] at hp
      obtain ⟨hT', hn'⟩ := gone_step (listInv_of_reachable hr) hT hn h
      rcases hp with hp | hp
      · split at hp <;> simp_all
      · exact passStates_gone as (.step a hr h) hT' hn' p hp

theorem nextTid_le_step (hl : ListInv s) {a : Act} (h : step s a = some s') : s.nextTid ≤ s'.nextTid := by
  cases listsMove_of_step (hl.not_run_exitDead _) h with
  | keep hk _ => exact hk.nextTid ▸ le_rfl
  | create cookie k stack _ _ hk _ => rw [hk.nextTid]; simp
  | exit _ he => exact he.nextTid ▸ le_rfl
  | pass _ hs _ => exact hs ▸ (pass_nextTid s).symm ▸ le_rfl

/-- The passes before the first that selects `T`, over a run whose passes
find `T` eligible until one selects it, select distinct threads, each ahead of
`T` at the start. -/
theorem selections_ahead : ∀ (as : List Act) {s : Sys}, Reachable s → T ∈ s.runq →
    (∀ p ∈ (s.passStates as).takeWhile (·.selected ≠ some T), p.eligible T = true) →
    ((s.selections as).takeWhile (· ≠ some T)).Nodup ∧
      ∀ o ∈ (s.selections as).takeWhile (· ≠ some T), ∃ n ∈ s.ahead T, o = some n
  | [], _, _, _, _ => by simp [selections, passStates]
  | a :: as, s, hr, hT, he => by
    cases h : step s a with
    | none => simp [selections, passStates, h]
    | some s' =>
      have hl := listInv_of_reachable hr
      by_cases ha : a = .pass
      · subst ha
        obtain ⟨-, -, -, rfl⟩ := step_pass h
        have hps : s.passStates (.pass :: as) = s :: s.pass.passStates as := by simp [passStates_cons h]
        have hes : s.eligible T = true := by
          by_cases hs : s.selected = some T
          · exact selected_eligible hs
          · exact he s (by simp [hps, hs])
        obtain ⟨n, hsel, hn⟩ := selected_of_eligible hes
        have hcons : s.selections (.pass :: as) = some n :: s.pass.selections as := by
          simp [selections, hps, hsel]
        rw [hcons]
        rcases hn with rfl | hn
        · simp
        have hnT : n ≠ T := by simpa using List.mem_takeWhile_imp hn
        have he' : ∀ p ∈ (s.pass.passStates as).takeWhile (·.selected ≠ some T), p.eligible T = true :=
          fun p hp => he p (by
            rw [hps, List.takeWhile_cons_of_pos (by simp [hsel, hnT])]; exact List.mem_cons_of_mem _ hp)
        obtain ⟨hT', hah⟩ := pass_ahead hsel hn hT
        obtain ⟨ih1, ih2⟩ := selections_ahead as (.step _ hr h) hT' he'
        have hnd : (s.ahead T).Nodup := hl.runq_nodup.sublist (List.takeWhile_sublist _)
        rw [List.takeWhile_cons_of_pos (by simpa using hnT)]
        refine ⟨List.nodup_cons.2 ⟨fun hm => ?_, ih1⟩, ?_⟩
        · obtain ⟨m, hm', e⟩ := ih2 _ hm
          rw [hah, Option.some.inj e] at hm'
          exact hnd.not_mem_erase hm'
        · rintro o (_ | ⟨_, ho⟩)
          · exact ⟨n, hn, rfl⟩
          · obtain ⟨m, hm, e⟩ := ih2 o ho
            rw [hah] at hm
            exact ⟨m, List.mem_of_mem_erase hm, e⟩
      · have hps : s.passStates (a :: as) = s'.passStates as := by simp [passStates_cons h, ha]
        have hcons : s.selections (a :: as) = s'.selections as := by simp [selections, hps]
        rw [hps] at he
        rw [hcons]
        by_cases hT' : T ∈ s'.runq
        · obtain ⟨ih1, ih2⟩ := selections_ahead as (.step a hr h) hT' he
          have hsub := ahead_step hl hT ha h hT'
          exact ⟨ih1, fun o ho => let ⟨m, hm, e⟩ := ih2 o ho; ⟨m, hsub.subset hm, e⟩⟩
        · have hlt : T < s'.nextTid := Nat.lt_of_lt_of_le (hl.runq_lt T hT) (nextTid_le_step hl h)
          have hgone := passStates_gone as (.step a hr h) hlt hT'
          have hsel : ∀ p ∈ s'.passStates as, decide (p.selected ≠ some T) = true := fun p hp => by
            simpa using fun hs => by simpa [eligible, hgone p hp] using selected_eligible hs
          rw [List.takeWhile_eq_self_iff.2 hsel] at he
          have hnil : s'.passStates as = [] := List.eq_nil_iff_forall_not_mem.2 fun p hp => by
            simpa [eligible, hgone p hp] using he p hp
          simp [selections, hnil]

/-- `T`, on the run list at the start of a run and eligible at its passes
until one selects it, is selected within `p + 1` passes, `p` the number of
threads ahead of it, and no other thread is selected twice before it. -/
theorem selections_before_of (hr : Reachable s) (hT : T ∈ s.runq) {as : List Act}
    (he : ∀ p ∈ (s.passStates as).takeWhile (·.selected ≠ some T), p.eligible T = true) :
    ((s.selections as).takeWhile (· ≠ some T)).Nodup ∧
      (∀ o ∈ (s.selections as).takeWhile (· ≠ some T), ∃ n ∈ s.ahead T, o = some n) ∧
      ((s.ahead T).length < (s.selections as).length →
        some T ∈ (s.selections as).take ((s.ahead T).length + 1)) := by
  obtain ⟨h1, h2⟩ := selections_ahead as hr hT he
  refine ⟨h1, h2, fun hlt => ?_⟩
  have hsub : (s.selections as).takeWhile (· ≠ some T) ⊆ (s.ahead T).map some := fun o ho =>
    let ⟨n, hn, e⟩ := h2 o ho; e ▸ List.mem_map_of_mem _ hn
  have hlen := (h1.subperm hsub).length_le
  rw [List.length_map] at hlen
  obtain ⟨x, hx, hq⟩ := exists_take_of_takeWhile hlen hlt
  rwa [show x = some T by simpa using hq] at hx

/-- `T`, eligible at every pass of a run and on the run list at its start, is
selected within `p + 1` passes, `p` the number of threads ahead of it, and no
other thread is selected twice before it. -/
theorem selections_before (hr : Reachable s) (hT : T ∈ s.runq) {as : List Act}
    (he : ∀ p ∈ s.passStates as, p.eligible T = true) :
    ((s.selections as).takeWhile (· ≠ some T)).Nodup ∧
      (∀ o ∈ (s.selections as).takeWhile (· ≠ some T), ∃ n ∈ s.ahead T, o = some n) ∧
      ((s.ahead T).length < (s.selections as).length →
        some T ∈ (s.selections as).take ((s.ahead T).length + 1)) :=
  selections_before_of hr hT fun p hp => he p ((List.takeWhile_sublist _).subset hp)

/-- When the same `k` threads, all on the run list at the start, are the
eligible ones at each of `k` passes, the passes select each of them once. -/
theorem selections_perm (hr : Reachable s) {K : List Tid} (hK : K.Nodup) (hin : ∀ t ∈ K, t ∈ s.runq)
    {as : List Act} (hlen : (s.passStates as).length = K.length)
    (he : ∀ p ∈ s.passStates as, ∀ t, p.eligible t = true ↔ t ∈ K) :
    (s.selections as).Perm (K.map some) := by
  have hsel : ∀ o ∈ s.selections as, ∃ n ∈ K, o = some n := by
    intro o ho
    obtain ⟨p, hp, rfl⟩ := List.mem_map.1 ho
    obtain ⟨T, hT⟩ := List.exists_mem_of_length_pos (hlen ▸ List.length_pos_of_mem hp)
    obtain ⟨n, hn, -⟩ := selected_of_eligible ((he p hp T).2 hT)
    exact ⟨n, (he p hp n).1 (selected_eligible hn), hn⟩
  have hall : ∀ T ∈ K, some T ∈ s.selections as := by
    intro T hT
    by_contra hno
    obtain ⟨h1, h2, -⟩ := selections_before hr (hin T hT) fun p hp => (he p hp T).2 hT
    rw [List.takeWhile_eq_self_iff.2 fun x hx => by simp only [ne_eq, decide_eq_true_eq]; rintro rfl; exact hno hx] at h1
    have hsub : s.selections as ⊆ (K.erase T).map some := fun o ho => by
      obtain ⟨n, hn, rfl⟩ := hsel o ho
      exact List.mem_map_of_mem _ ((List.mem_erase_of_ne fun e => hno (by rw [← e]; exact ho)).2 hn)
    have := (h1.subperm hsub).length_le
    rw [List.length_map, List.length_erase_of_mem hT, selections, List.length_map, hlen] at this
    have := List.length_pos_of_mem hT
    omega
  refine (List.Subperm.perm_of_length_le ?_ ?_).symm
  · exact (hK.map (Option.some_injective Tid)).subperm fun o ho => by
      obtain ⟨T, hT, rfl⟩ := List.mem_map.1 ho; exact hall T hT
  · simp [selections, hlen]

/-- **Round robin.** From every reachable state: over a run whose every pass
finds a thread `T` of the run list eligible, the passes before the first that
selects `T` select distinct threads, each ahead of `T` at the start, and `T`
is selected within `p + 1` passes, `p` the number of threads ahead of it; and
when the same `k` threads of the run list are the eligible ones at each of `k`
passes, the passes select each of them once. -/
theorem round_robin (hr : Reachable s) :
    (∀ T as, T ∈ s.runq → (∀ p ∈ s.passStates as, p.eligible T = true) →
      ((s.selections as).takeWhile (· ≠ some T)).Nodup ∧
      (∀ o ∈ (s.selections as).takeWhile (· ≠ some T), ∃ n ∈ s.ahead T, o = some n) ∧
      ((s.ahead T).length < (s.selections as).length →
        some T ∈ (s.selections as).take ((s.ahead T).length + 1))) ∧
    ∀ (K : List Tid) as, K.Nodup → (∀ t ∈ K, t ∈ s.runq) → (s.passStates as).length = K.length →
      (∀ p ∈ s.passStates as, ∀ t, p.eligible t = true ↔ t ∈ K) →
      (s.selections as).Perm (K.map some) :=
  ⟨fun _ _ hT he => selections_before hr hT he, fun _ _ hK hin hlen he => selections_perm hr hK hin hlen he⟩

theorem round_robin_init :
    (∀ T as, T ∈ init.runq → (∀ p ∈ init.passStates as, p.eligible T = true) →
      ((init.selections as).takeWhile (· ≠ some T)).Nodup ∧
      (∀ o ∈ (init.selections as).takeWhile (· ≠ some T), ∃ n ∈ init.ahead T, o = some n) ∧
      ((init.ahead T).length < (init.selections as).length →
        some T ∈ (init.selections as).take ((init.ahead T).length + 1))) ∧
    ∀ (K : List Tid) as, K.Nodup → (∀ t ∈ K, t ∈ init.runq) → (init.passStates as).length = K.length →
      (∀ p ∈ init.passStates as, ∀ t, p.eligible t = true ↔ t ∈ K) →
      (init.selections as).Perm (K.map some) :=
  round_robin Reachable.init

end

end Sys

end RumpuserXen
