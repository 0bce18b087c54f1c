import WatchdogDaemon.Config.ReadConfig
import WatchdogDaemon.MainLoop

/- The main loop on the whole `tr_bin_list`: whose result a result is.

   The loop calls `check_bin` for one entry after the other and hands each answer to
   `wd_action` with the entry it came from. An entry is its place in the list, with a name
   and a version; a child is recorded by name only. `add_list` takes any name twice, and
   a test that is given as `test-binary` may be found in `test-directory` as well.

   `Start` says which entry a child was started for, and with what arguments. It is read
   off the kernel's count of forks and no function reads it. A request for a shutdown does
   not end a run here, so that the runs of the daemon are among those considered.

   What is proved:
     1. `credited_by_name` — in every run on every list, an answer that is not EDONTKNOW
        is EREBOOT because `fork` failed, ENOMEM because there was no memory for the
        record, or the outcome of a child that an earlier call started for an entry whose
        name, cut to its buffer, is this entry's name. When no other entry has such a name,
        it is a child of this entry, started with its arguments.
     2. `credited_to_another` — a file gives one program as `test-binary` and in
        `test-directory`. The child of the first entry fails, and the second, which has
        started none, is handed its result.

   Correspondence (C ↔ Lean):
     the `tr_bin_list` loop of `main`         ↔ `ListEv.turn`, `entryTurn`
     `check_bin (NULL, test_timeout, 0)`      ↔ `ListEv.turn` past the last entry
     the other checks of `main`               ↔ `ListEv.repair` (what they do to children) -/
namespace Watchdog

/-- A child, the place of the entry it was started for, and its argument vector. -/
structure Start where
  child : Nat
  entry : Nat
  argv : List CString
  deriving DecidableEq

/-- The loop: `next` is the place of the entry that comes up. -/
structure ListState where
  sys : Sys
  acts : List Entry
  next : Nat
  starts : List Start

/-- A child ends, a repair runs for another check, or the loop goes on. -/
inductive ListEv where
  | ends (id : Nat) (t : Term)
  | repair (r : RepairCall)
  | turn (c : Cycle)

/-- The state at `wd_action` for the entry, and the result it is handed. -/
def ListState.checked (cfg : Config) (s : ListState) (act : Entry) (c : Cycle) : Sys × Int :=
  let (t, result) := LoopState.checked cfg ⟨s.sys, act⟩ c
  (t.sys, result)

/-- The starts after `check_bin` for the entry that comes up. -/
def ListState.started (s : ListState) (act : Entry) (checked : Sys) : List Start :=
  if checked.kernel.forks = s.sys.kernel.forks then s.starts
  else ⟨s.sys.kernel.forks, s.next, testArgv act.name act.version⟩ :: s.starts

/-- `check_bin` and `wd_action` for the entry that comes up. -/
def entryTurn (cfg : Config) (rbinary : Option CString) (s : ListState) (act : Entry) (c : Cycle) :
    ListState :=
  let t := (cycle cfg rbinary ⟨s.sys, act⟩ c).1
  ⟨t.sys, s.acts.set s.next t.act, s.next + 1, s.started act (s.checked cfg act c).1⟩

def listStep (cfg : Config) (rbinary : Option CString) (s : ListState) : ListEv → ListState
  | .ends id t => { s with sys := step s.sys (.ends id t) }
  | .repair r => { s with sys := runRepair s.sys r }
  | .turn c =>
    match s.acts[s.next]? with
    | some act => entryTurn cfg rbinary s act c
    | none =>
      -- The list is through: the loop gathers, sleeps and starts over.
      { s with
        sys := (checkBin s.sys { c.bin with tbinary := none, timeout := cfg.testTimeout }).1
        next := 0 }

/-- The loop on the entries after the events. -/
def listAfter (cfg : Config) (rbinary : Option CString) (tests : List Entry) (es : List ListEv) :
    ListState :=
  Runs.run (listStep cfg rbinary) ⟨.init, tests, 0, []⟩ es

/-! ## The specification -/

/-- The start was for an entry whose record has this name, with the entry's arguments. -/
def Start.By (tests : List Entry) (name : CString) (st : Start) : Prop :=
  ∃ b, tests[st.entry]? = some b ∧ b.name.take (pathMax - 1) = name ∧
    st.argv = testArgv b.name b.version

/-- The start was for the entry that comes up, with its arguments. -/
def Start.Own (s : ListState) (act : Entry) (st : Start) : Prop :=
  st.entry = s.next ∧ st.argv = testArgv act.name act.version

/-- The result for the entry that comes up is the outcome of a child of its own. -/
def OwnResult (cfg : Config) (s : ListState) (act : Entry) (c : Cycle) : Prop :=
  ∃ st ∈ s.starts, st.Own s act ∧
    doneAs st.child (s.checked cfg act c).1.obs = some (s.checked cfg act c).2

/-- No entry at another place has a name whose record is found under this name. -/
def OnlyEntry (tests : List Entry) (i : Nat) (name : CString) : Prop :=
  ∀ j b, tests[j]? = some b → b.name.take (pathMax - 1) = name → j = i

/-! ## What `wd_action` keeps of an entry -/

/-- What tells an entry from others, but for its place. -/
def Entry.ident (e : Entry) : CString × Int := (e.name, e.version)

theorem retryTimer_ident (cfg : Config) (now : Int) (act : Option Entry) :
    (retryTimer cfg now act).1.map Entry.ident = act.map Entry.ident := by
  unfold retryTimer
  cases act with
  | none => rfl
  | some act =>
    simp only
    repeat' split
    all_goals rfl

theorem countRepair_ident (cfg : Config) (act : Option Entry) :
    (countRepair cfg act).1.map Entry.ident = act.map Entry.ident := by
  unfold countRepair
  cases act with
  | none => rfl
  | some act =>
    simp only
    repeat' split
    all_goals rfl

theorem plan_ident {cfg : Config} {now result : Int} {act act' : Option Entry}
    (h : (∃ out, plan cfg now result act = .settled out ∧ out.act = act') ∨
      plan cfg now result act = .tryRepair act') : act'.map Entry.ident = act.map Entry.ident := by
  have hcount : (countRepair cfg (retryTimer cfg now act).1).1.map Entry.ident =
      act.map Entry.ident :=
    (countRepair_ident cfg _).trans (retryTimer_ident cfg now act)
  obtain ⟨out, hp, rfl⟩ | hp := h
  · unfold plan at hp
    repeat' split at hp
    all_goals cases hp
    · cases act <;> rfl
    · rfl
    · rfl
    · exact hcount
    · exact retryTimer_ident cfg now act
  · unfold plan at hp
    repeat' split at hp
    all_goals cases hp
    exact hcount

theorem loopAction_ident (cfg : Config) (rbinary : Option CString) (s : LoopState) (c : Cycle)
    (result : Int) : (loopAction cfg rbinary s c result).1.act.ident = s.act.ident := by
  have hget : ∀ act' : Option Entry, act'.map Entry.ident = some s.act.ident →
      (act'.getD s.act).ident = s.act.ident := by
    intro act' h
    obtain ⟨e, rfl, he⟩ := Option.map_eq_some_iff.mp h
    exact he
  obtain ⟨out, hp, heq⟩ | ⟨act', code, kernel, hp, -, heq⟩ := loopAction_cases s c result
  · rw [heq]
    exact hget out.act (plan_ident (Or.inl ⟨out, hp, rfl⟩))
  · rw [heq]
    exact hget act' (plan_ident (Or.inr hp))

/-! ## Whose child a record is about -/

/-- Every record is about a child that was started for an entry with its name. -/
structure Owned (tests : List Entry) (starts : List Start) (s : Sys) : Prop where
  inv : Inv s.head s.kernel
  traced : Traced s
  owner : ∀ p ∈ s.head, ∃ st ∈ starts, st.child = p.child ∧ st.By tests p.procName

section Owned
variable {tests : List Entry} {starts : List Start} {s : Sys}

theorem Owned.evolves (h : Owned tests starts s) {kernel : Kernel} (hev : s.kernel.Evolves kernel) :
    Owned tests starts { s with kernel } :=
  ⟨h.inv.evolves hev, h.traced.evolves hev, h.owner⟩

/-- An observation that is neither a start nor an end. -/
theorem Owned.observe (h : Owned tests starts s) {o : Obs} (hcloses : ∀ id, o.closes id = none)
    (hstart : ∀ id name, o ≠ .started id name) : Owned tests starts { s with obs := o :: s.obs } :=
  ⟨h.inv, h.traced.observe hcloses hstart, h.owner⟩

theorem Owned.swept (h : Owned tests starts s) (c : BinCall) : Owned tests starts (s.swept c) := by
  refine ⟨h.inv.swept c, h.traced.swept h.inv c, ?_⟩
  intro p hp
  obtain ⟨q, hq, hchild, hname⟩ := h.inv.swept_records c p hp
  rw [← hchild, ← hname]
  exact h.owner q hq

/-- More starts do no harm. -/
theorem Owned.more (h : Owned tests starts s) (st : Start) : Owned tests (st :: starts) s := by
  refine ⟨h.inv, h.traced, ?_⟩
  intro p hp
  obtain ⟨st', hmem, hst'⟩ := h.owner p hp
  exact ⟨st', List.mem_cons_of_mem st hmem, hst'⟩

/-- After the rest of the call the new record, if there is one, is about the new child. -/
theorem Owned.answered {s' : Sys} {c : BinCall} {name : CString} {code : Int} {st : Start}
    (h : Owned tests starts s) (ha : Answered c name s s' code) (hchild : st.child = s.kernel.forks)
    (hby : st.By tests (name.take (pathMax - 1))) :
    Owned tests (if s'.kernel.forks = s.kernel.forks then starts else st :: starts) s' := by
  have hinv := h.inv.answered ha
  have htraced := h.traced.answered ha
  cases ha with
  | running =>
    rw [if_pos rfl]
    exact h
  | failed look =>
    rw [if_pos rfl]
    exact ⟨hinv, htraced, fun p hp => h.owner p (look.sublist.subset hp)⟩
  | freed => exact ⟨hinv, htraced, fun p hp => absurd hp List.not_mem_nil⟩
  | @added head ecode pid k look hpid hfork =>
    have hne : ¬ k.forks = s.kernel.forks := by
      rw [(Kernel.fork_some hfork).2.2.2]
      omega
    rw [if_neg hne] at *
    refine ⟨hinv, htraced, ?_⟩
    intro p hp
    rcases List.mem_cons.mp hp with rfl | hp
    · exact ⟨st, List.mem_cons_self, hchild, hby⟩
    · exact (h.more st).owner p (look.sublist.subset hp)

end Owned

theorem swept_forks (s : Sys) (c : BinCall) : (s.swept c).kernel.forks = s.kernel.forks := by
  apply swept_inv (I := fun t => t.kernel.forks = s.kernel.forks) _ _ _ c rfl
  · intro t id term ht
    exact ht
  · intro t id d term ht _
    exact ht
  · intro t timeout now ht
    rw [expired_kernel, Kernel.killAll_forks]
    exact ht

/-! ## The invariant of the loop -/

/-- `entries`: names and versions are those of the configuration. -/
structure ListInv (tests : List Entry) (s : ListState) : Prop where
  entries : s.acts.map Entry.ident = tests.map Entry.ident
  owned : Owned tests s.starts s.sys

/-- The entry that comes up, as it was configured. -/
theorem ListInv.entry {tests : List Entry} {s : ListState} (h : ListInv tests s) {act : Entry}
    (hact : s.acts[s.next]? = some act) :
    ∃ b, tests[s.next]? = some b ∧ b.name = act.name ∧ b.version = act.version := by
  have hident := congrArg (fun l => l[s.next]?) h.entries
  simp only [List.getElem?_map, hact, Option.map_some] at hident
  obtain ⟨b, hb, hbe⟩ := Option.map_eq_some_iff.mp hident.symm
  exact ⟨b, hb, congrArg Prod.fst hbe, congrArg Prod.snd hbe⟩

/-- The call of `check_bin` for the entry that comes up. -/
def entryCall (cfg : Config) (act : Entry) (c : Cycle) : BinCall :=
  { c.bin with tbinary := some act.name, timeout := cfg.testTimeout }

theorem checked_answered (cfg : Config) (s : ListState) (act : Entry) (c : Cycle) :
    ∃ s' code, Answered (entryCall cfg act c) act.name (s.sys.swept (entryCall cfg act c)) s' code ∧
      s.checked cfg act c = ({ s' with obs := .returned act.name code :: s'.obs }, code) := by
  have hname : (entryCall cfg act c).tbinary = some act.name := rfl
  obtain ⟨s', code, ha, heq⟩ := checkBin_answered s.sys hname
  exact ⟨s', code, ha, heq⟩

section Step
variable {cfg : Config} {rbinary : Option CString} {tests : List Entry} {s : ListState}

theorem ListInv.checked (h : ListInv tests s) {act : Entry} (hact : s.acts[s.next]? = some act)
    (c : Cycle) : Owned tests (s.started act (s.checked cfg act c).1) (s.checked cfg act c).1 := by
  obtain ⟨b, hb, hname, hversion⟩ := h.entry hact
  obtain ⟨s', code, ha, heq⟩ := checked_answered cfg s act c
  have hby : Start.By tests (act.name.take (pathMax - 1))
      ⟨s.sys.kernel.forks, s.next, testArgv act.name act.version⟩ :=
    ⟨b, hb, by rw [hname], by rw [hname, hversion]⟩
  have howned := (h.owned.swept (entryCall cfg act c)).answered ha (swept_forks _ _).symm hby
  rw [swept_forks] at howned
  rw [heq]
  exact howned.observe (fun _ => rfl) (fun _ _ hne => by cases hne)

/-- `wd_action` leaves the records and their children alone. -/
theorem Owned.acted {starts : List Start} {t : LoopState} (h : Owned tests starts t.sys) (c : Cycle)
    (result : Int) : Owned tests starts (loopAction cfg rbinary t c result).1.sys := by
  obtain ⟨out, -, heq⟩ | ⟨act', code, kernel, -, hev, heq⟩ := loopAction_cases t c result
  · rw [heq]
    cases out.repaired with
    | none => exact h
    | some code => exact h.observe (fun _ => rfl) (fun _ _ hne => by cases hne)
  · rw [heq]
    exact (h.evolves hev).observe (fun _ => rfl) (fun _ _ hne => by cases hne)

theorem ListInv.turn (h : ListInv tests s) {act : Entry} (hact : s.acts[s.next]? = some act)
    (c : Cycle) : ListInv tests (entryTurn cfg rbinary s act c) := by
  have hcycle : cycle cfg rbinary ⟨s.sys, act⟩ c =
      loopAction cfg rbinary ⟨(s.checked cfg act c).1, act⟩ c (s.checked cfg act c).2 := rfl
  unfold entryTurn
  rw [hcycle]
  refine ⟨?_, (h.checked hact c).acted c _⟩
  have hident := loopAction_ident cfg rbinary ⟨(s.checked cfg act c).1, act⟩ c (s.checked cfg act c).2
  have hlt : s.next < s.acts.length := (List.getElem?_eq_some_iff.mp hact).1
  rw [← h.entries, List.map_set, hident]
  apply List.ext_getElem?
  intro i
  rw [List.getElem?_set]
  split
  · next hi =>
    subst hi
    rw [if_pos (by simpa using hlt), List.getElem?_map, hact]
    rfl
  · rfl

theorem ListInv.step (h : ListInv tests s) (e : ListEv) : ListInv tests (listStep cfg rbinary s e) := by
  cases e with
  | ends id t => exact ⟨h.entries, h.owned.evolves (s.sys.kernel.terminate_evolves id t)⟩
  | repair r =>
    refine ⟨h.entries, ?_⟩
    exact (h.owned.evolves (r.env.repair_evolves r.cfg r.rbinary r.result s.sys.kernel)).observe
      (fun _ => rfl) (fun _ _ hne => by cases hne)
  | turn c =>
    simp only [listStep]
    split
    · next act hact => exact h.turn hact c
    · exact ⟨h.entries, h.owned.swept _⟩

theorem listAfter_inv (cfg : Config) (rbinary : Option CString) (tests : List Entry)
    (es : List ListEv) : ListInv tests (listAfter cfg rbinary tests es) := by
  apply Runs.run_inv (I := ListInv tests) (fun s e h _ => h.step e)
  · exact ⟨rfl, Inv.init, Traced.init, fun _ hp => absurd hp List.not_mem_nil⟩
  · exact Runs.allowed_of_forall fun _ _ => trivial

/-- An answer of one call. -/
theorem ListInv.answer (h : ListInv tests s) (cfg : Config) (act : Entry) (c : Cycle) :
    (s.checked cfg act c).2 = edontknow ∨
    ((s.checked cfg act c).2 = ereboot ∧
      (s.checked cfg act c).1.kernel.forks = s.sys.kernel.forks) ∨
    ((s.checked cfg act c).2 = enomem ∧ c.bin.malloc = false) ∨
    ∃ st ∈ s.starts, st.By tests act.name ∧
      doneAs st.child (s.checked cfg act c).1.obs = some (s.checked cfg act c).2 := by
  have hswept := h.owned.swept (entryCall cfg act c)
  obtain ⟨s', code, ha, heq⟩ := checked_answered cfg s act c
  rw [heq]
  cases ha with
  | running => exact Or.inl rfl
  | failed => exact Or.inr (Or.inl ⟨rfl, swept_forks _ _⟩)
  | freed _ _ hmalloc => exact Or.inr (Or.inr (Or.inl ⟨rfl, hmalloc⟩))
  | added look =>
    cases look with
    | blank => exact Or.inl rfl
    | completed p hp hname hdone =>
      obtain ⟨st, hmem, hchild, hby⟩ := hswept.owner p hp
      refine Or.inr (Or.inr (Or.inr ⟨st, hmem, by rw [← hname]; exact hby, ?_⟩))
      apply doneAs_cons_some
      apply doneAs_cons_some
      rw [hchild, hswept.traced.record p hp, hdone]
      rfl

end Step

/-- **Results are credited by name.** What `wd_action` is handed for an entry is EDONTKNOW,
the failure to start a child or to record it, or the outcome of a child that an earlier call
started for an entry of that name: a child of the entry itself when no other has the name. -/
theorem credited_by_name (cfg : Config) (rbinary : Option CString) (tests : List Entry)
    (es : List ListEv) (act : Entry) (c : Cycle) :
    let s := listAfter cfg rbinary tests es
    s.acts[s.next]? = some act →
      (s.checked cfg act c).2 = edontknow ∨
      ((s.checked cfg act c).2 = ereboot ∧
        (s.checked cfg act c).1.kernel.forks = s.sys.kernel.forks) ∨
      ((s.checked cfg act c).2 = enomem ∧ c.bin.malloc = false) ∨
      (∃ st ∈ s.starts, st.By tests act.name ∧
        doneAs st.child (s.checked cfg act c).1.obs = some (s.checked cfg act c).2) ∧
      (OnlyEntry tests s.next act.name → OwnResult cfg s act c) := by
  intro s hact
  have hinv : ListInv tests s := listAfter_inv cfg rbinary tests es
  obtain hr | hr | hr | ⟨st, hmem, hby, hdone⟩ := hinv.answer cfg act c
  · exact Or.inl hr
  · exact Or.inr (Or.inl hr)
  · exact Or.inr (Or.inr (Or.inl hr))
  · refine Or.inr (Or.inr (Or.inr ⟨⟨st, hmem, hby, hdone⟩, ?_⟩))
    intro honly
    obtain ⟨b, hb, hname, hargv⟩ := hby
    have hplace : st.entry = s.next := honly st.entry b hb hname
    obtain ⟨b', hb', hname', hversion'⟩ := hinv.entry hact
    rw [hplace, hb'] at hb
    obtain rfl := Option.some.inj hb
    rw [hname', hversion'] at hargv
    exact ⟨st, hmem, ⟨hplace, hargv⟩, hdone⟩

/-- Two programs, the first of which fails: it is handed its own child's result. -/
theorem credited_by_name_fails :
    let tests := [freshEntry ['t'] 0, freshEntry ['u'] 1]
    let es : List ListEv := [.turn (cycleAt 1 [] 5), .turn (cycleAt 1 [] 6), .turn (cycleAt 1 [] 7)]
    let s := listAfter {} none tests es
    s.acts[s.next]? = some (freshEntry ['t'] 0) ∧
      (s.checked {} (freshEntry ['t'] 0) (cycleAt 2 (fails 0) 7)).2 = 1 ∧
      OwnResult {} s (freshEntry ['t'] 0) (cycleAt 2 (fails 0) 7) := by
  intro tests es s
  have hact : s.acts[s.next]? = some (freshEntry ['t'] 0) := by decide
  have hone : (s.checked {} (freshEntry ['t'] 0) (cycleAt 2 (fails 0) 7)).2 = 1 := by decide
  refine ⟨hact, hone, ?_⟩
  obtain hr | ⟨hr, -⟩ | ⟨hr, -⟩ | ⟨-, honly⟩ :=
    credited_by_name {} none tests es (freshEntry ['t'] 0) (cycleAt 2 (fails 0) 7) hact
  · exact absurd (hone.symm.trans hr) (by decide)
  · exact absurd (hone.symm.trans hr) (by decide)
  · exact absurd (hone.symm.trans hr) (by decide)
  · apply honly
    intro j b hb hname
    match j with
    | 0 => rfl
    | 1 =>
      cases hb
      exact absurd hname (by decide)

/-- A directory with one program. -/
def oneProgram : ConfEnv where
  fclose := true
  stat := fun path =>
    if path = "/d".toList then some ⟨.dir, true, true⟩
    else if path = "/d/t".toList then some ⟨.reg, true, true⟩
    else none
  opendir := fun path => if path = "/d".toList then some [['t']] else none

/-- The program is given as `test-binary` and is in `test-directory`, so that it is two
entries. The child of the first fails, and its result is handed to the second, which has
started none and would have given it an argument. Nor is it a child's outcome when `fork` or
`malloc` fails. -/
theorem credited_to_another :
    let text := "test-binary = /d/t\ntest-directory = /d\n".toList
    let tests := [freshEntry "/d/t".toList 0, freshEntry "/d/t".toList 1]
    let s := listAfter {} none tests [.turn (cycleAt 1 [] 5)]
    let first := listAfter {} none tests []
    let c := cycleAt 1 [] 5
    ((readConfig oneProgram defaults (some text)).toOption.map fun g =>
      (g (.list .trBinList)).map ListEntry.toEntry) = some tests ∧
    (s.acts[s.next]? = some (freshEntry "/d/t".toList 1) ∧
      (s.checked {} (freshEntry "/d/t".toList 1) (cycleAt 2 (fails 0) 6)).2 = 1 ∧
      s.starts = [⟨0, 0, ["/d/t".toList]⟩] ∧
      ¬ OwnResult {} s (freshEntry "/d/t".toList 1) (cycleAt 2 (fails 0) 6)) ∧
    (first.checked {} (freshEntry "/d/t".toList 0) { c with bin := { c.bin with fork := none } }).2 =
      ereboot ∧
    (first.checked {} (freshEntry "/d/t".toList 0) { c with bin := { c.bin with malloc := false } }).2 =
      enomem ∧ first.starts = [] := by
  intro text tests s first c
  have hstarts : s.starts = [⟨0, 0, ["/d/t".toList]⟩] := by decide +kernel
  refine ⟨by decide +kernel, ⟨by decide +kernel, by decide +kernel, hstarts, ?_⟩, by decide +kernel,
    by decide +kernel, rfl⟩
  intro h
  obtain ⟨st, hmem, ⟨hplace, -⟩, -⟩ := h
  rw [hstarts, List.mem_singleton] at hmem
  subst hmem
  exact absurd hplace (by decide +kernel)

end Watchdog
