import WatchdogDaemon.Daemon.Refine

/- The list entries in the running daemon.

   Every entry has its own retry timer and repair counter, and `wd_action` is called for all
   of them in turn. An entry is not touched by the calls for the others (`entry_alone`), so
   what `Retry` proves of the calls on one entry holds of the entries of the daemon, and with
   `loop_refines` of what the daemon does.

   What is proved: `repairs_in_time` — in every run of the loop, for every list entry that has
   a repair program, with a positive retry time-out and a positive limit of repairs: the program
   is started exactly when the entry's fault is overdue and fewer
   than `repair_max` repairs ran since its last success; when they are used up, or the result
   asks for a reboot, the system goes down with that result and nothing is reported after it;
   and it goes down after a result of the entry for no other reason but a failed repair. The
   clock is not set back in the run, its readings span less than 2^31 s, and the entry is looked
   at less than 2^31 times. -/
namespace Watchdog.Daemon
open CallTree

/-! ## One entry of the machine -/

section Machine
variable {cfg : Config} {rbinary : Option CString} {acts : List Entry} {i : Nat} {e : Entry}

/-- The calls for the entry are those of a run on the entry alone, which it agrees with. -/
structure Alone (cfg : Config) (rbinary : Option CString) (i : Nat) (e : Entry) (own : List ActionCall)
    (s : MainState) : Prop where
  made : s.of (.entry i) = (Runs.run (retryStep cfg rbinary) ⟨e, []⟩ own).made
  entry : s.acts[i]? = some (Runs.run (retryStep cfg rbinary) ⟨e, []⟩ own).act

theorem put_other {src : Source} (h : src ≠ .entry i) (act : Option Entry) : (src.put acts act)[i]? = acts[i]? := by
  cases src with
  | global g => rfl
  | entry j =>
    cases act with
    | none => rfl
    | some act =>
      refine List.getElem?_set_ne ?_
      rintro rfl
      exact h rfl

theorem Alone.other {own : List ActionCall} {s : MainState} (h : Alone cfg rbinary i e own s) {n : Nat}
    (hsource : s.source n ≠ .entry i) (c : ActionCall) :
    Alone cfg rbinary i e own (mainStep cfg rbinary n s c) := by
  unfold mainStep
  split
  · exact h
  · refine ⟨?_, ?_⟩
    · rw [← h.made]
      unfold MainState.of
      rw [List.filter_cons_of_neg (by simpa using hsource)]
    · rw [← h.entry]
      exact put_other hsource _

theorem Alone.step {own : List ActionCall} {s : MainState} (h : Alone cfg rbinary i e own s) {n : Nat}
    (hsource : s.source n = .entry i) (hup : s.down = false) (c : ActionCall) :
    Alone cfg rbinary i e (own ++ [c]) (mainStep cfg rbinary n s c) := by
  have hact : (s.source n).act s.acts = some (Runs.run (retryStep cfg rbinary) ⟨e, []⟩ own).act := by
    rw [hsource]
    exact h.entry
  have hout : s.action cfg rbinary n c = actOn cfg rbinary (Runs.run (retryStep cfg rbinary) ⟨e, []⟩ own).act c := by
    unfold MainState.action actOn
    rw [hact]
  -- `wd_action` gives the entry back.
  obtain ⟨act, hsome⟩ : ∃ act, (s.action cfg rbinary n c).act = some act := by
    have hkey := wdAction_key cfg rbinary c ((s.source n).act s.acts)
    rw [hact] at hkey
    obtain ⟨act, hact', -⟩ := Option.map_eq_some_iff.mp hkey
    refine ⟨act, ?_⟩
    unfold MainState.action
    rw [hact]
    exact hact'
  have hrun : Runs.run (retryStep cfg rbinary) ⟨e, []⟩ (own ++ [c]) =
      ⟨act, ⟨c, (s.action cfg rbinary n c).repaired, (s.action cfg rbinary n c).request⟩ ::
        (Runs.run (retryStep cfg rbinary) ⟨e, []⟩ own).made⟩ := by
    rw [Runs.run_append, hout]
    rw [hout] at hsome
    simp [retryStep, hsome]
  unfold mainStep
  rw [hup, if_neg Bool.false_ne_true]
  refine ⟨?_, ?_⟩
  · rw [hrun]
    unfold MainState.of
    rw [List.filter_cons_of_pos (by simpa using hsource), List.map_cons]
    exact congrArg _ h.made
  · rw [hrun]
    have hlt : i < s.acts.length := (List.getElem?_eq_some_iff.mp h.entry).1
    show ((s.source n).put s.acts (s.action cfg rbinary n c).act)[i]? = some act
    rw [hsource, hsome]
    exact List.getElem?_set_self hlt

/-- **An entry runs alone.** -/
theorem entry_alone (cfg : Config) (rbinary : Option CString) (hi : acts[i]? = some e) (calls : List ActionCall) :
    ∃ own, Alone cfg rbinary i e own (mainAfter cfg rbinary acts calls) := by
  refine Runs.run_inv (I := fun s => ∃ own, Alone cfg rbinary i e own s) ?_ ⟨[], rfl, hi⟩
    (Runs.allowed_of_forall (P := fun _ => True) fun _ _ => trivial)
  rintro s c ⟨own, h⟩ -
  by_cases hdown : s.down = true
  · refine ⟨own, ?_⟩
    unfold mainStep
    rwa [if_pos hdown]
  · rw [Bool.not_eq_true] at hdown
    by_cases hsource : s.source acts.length = .entry i
    · exact ⟨own ++ [c], h.step hsource hdown c⟩
    · exact ⟨own, h.other hsource c⟩

/-- A shutdown is the last thing the machine does. -/
theorem shutdown_last (calls : List ActionCall) (later earlier : List (Source × Made)) (d : Source × Made) (code : Int)
    (hmade : (mainAfter cfg rbinary acts calls).made = later ++ d :: earlier)
    (hrequest : d.2.request = some (.doShutdown code)) :
    later = [] ∧ (mainAfter cfg rbinary acts calls).down = true := by
  have hinv : ∀ later d earlier, (mainAfter cfg rbinary acts calls).made = later ++ d :: earlier →
      (∃ code, d.2.request = some (.doShutdown code)) →
      later = [] ∧ (mainAfter cfg rbinary acts calls).down = true := by
    refine Runs.run_inv (I := fun s : MainState => ∀ later d earlier, s.made = later ++ d :: earlier →
      (∃ code, d.2.request = some (.doShutdown code)) → later = [] ∧ s.down = true) ?_ ?_
      (Runs.allowed_of_forall (P := fun _ => True) fun _ _ => trivial)
    · intro s c hs _
      unfold mainStep
      split
      · exact hs
      · next hup =>
        intro later d earlier hmade hcode
        cases later with
        | nil =>
          obtain ⟨code, hcode⟩ := hcode
          obtain ⟨rfl, -⟩ := List.cons.inj hmade
          refine ⟨rfl, ?_⟩
          dsimp only at hcode ⊢
          rw [hcode]
        | cons x later =>
          obtain ⟨-, hrest⟩ := List.cons.inj hmade
          exact absurd (hs later d earlier hrest hcode).2 hup
    · intro later d earlier hmade
      exact absurd hmade.symm (List.append_ne_nil_of_right_ne_nil _ (List.cons_ne_nil _ _))
  exact hinv later d earlier hmade ⟨code, hrequest⟩

/-- Where a call stands in a run on one entry. -/
theorem retry_made_split {own : List ActionCall} {later earlier : List Made} {d : Made}
    (h : (Runs.run (retryStep cfg rbinary) ⟨e, []⟩ own).made = later ++ d :: earlier) :
    ∃ pre c post, own = pre ++ c :: post ∧ (Runs.run (retryStep cfg rbinary) ⟨e, []⟩ pre).made = earlier ∧
      d = ⟨c, (actOn cfg rbinary (Runs.run (retryStep cfg rbinary) ⟨e, []⟩ pre).act c).repaired,
        (actOn cfg rbinary (Runs.run (retryStep cfg rbinary) ⟨e, []⟩ pre).act c).request⟩ := by
  induction own using List.reverseRecOn generalizing later with
  | nil => exact absurd h.symm (List.append_ne_nil_of_right_ne_nil _ (List.cons_ne_nil _ _))
  | append_singleton own c ih =>
    rw [Runs.run_append] at h
    cases later with
    | nil =>
      obtain ⟨hd, hrest⟩ := List.cons.inj h
      exact ⟨own, c, [], rfl, hrest, hd.symm⟩
    | cons x later =>
      obtain ⟨-, hrest⟩ := List.cons.inj h
      obtain ⟨pre, c', post, hown, hpre, hd⟩ := ih hrest
      refine ⟨pre, c', post ++ [c], ?_, hpre, hd⟩
      rw [hown, List.append_assoc]
      rfl

end Machine

/-! ## What the reports tell -/

def Report.call (d : Report) : ActionCall := ⟨d.result, d.now, enoerr⟩

/-- The call as it was seen: what a repair answered is not in it. -/
def Report.made (d : Report) : Made := ⟨d.call, if d.forked then some enoerr else none, none⟩

/-- The calls for one entry. -/
def ofEntry (i : Nat) (reports : List Report) : List Made :=
  (reports.filter fun d => d.source = .entry i).map Report.made

/-- A call without what is not seen of it. -/
def bare (c : ActionCall) : ActionCall := { c with answer := enoerr }

def bareMade (d : Made) : Made := ⟨bare d.call, d.repaired.map fun _ => enoerr, none⟩

theorem resets_bareMade (d : Made) : (bareMade d).resets = d.resets := by
  simp [Made.resets, bareMade, bare]

theorem pendingFault_bare (made : List Made) : pendingFault (made.map bareMade) = (pendingFault made).map bare := by
  have htake : (made.map bareMade).takeWhile (fun d => !d.resets) =
      (made.takeWhile fun d => !d.resets).map bareMade := by
    rw [List.takeWhile_map]
    congr 2
    funext d
    exact congrArg _ (resets_bareMade d)
  unfold pendingFault
  rw [htake, ← List.map_reverse, List.map_map]
  exact (congrArg _ (List.map_map (f := Made.call) (g := bare)).symm).trans List.find?_map

theorem repairsSinceOk_bare (made : List Made) : repairsSinceOk (made.map bareMade) = repairsSinceOk made := by
  unfold repairsSinceOk
  rw [List.takeWhile_map, List.countP_map]
  congr 1
  funext d
  exact Option.isSome_map

theorem overdue_bare {cfg : Config} {made : List Made} {c : ActionCall} :
    Overdue cfg (made.map bareMade) (bare c) ↔ Overdue cfg made c := by
  have hnow : ((pendingFault (made.map bareMade)).getD (bare c)).now = ((pendingFault made).getD c).now := by
    rw [pendingFault_bare]
    cases pendingFault made with
    | none => rfl
    | some f => rfl
  unfold Overdue
  rw [hnow]
  rfl

section Reports
variable {rbinary : Option CString} {acts : List Entry} {i : Nat}

/-- With a repair program, a report is all of a call but the answers. -/
theorem report_made {d : Source × Made} (hbin : (repairBinary rbinary (d.1.act acts)).isSome = true) :
    (report rbinary acts d).made = bareMade d.2 := by
  unfold report Report.made Report.call bareMade bare
  dsimp only
  rw [hbin, Bool.and_true]
  cases d.2.repaired with
  | none => rfl
  | some answer => rfl

theorem ofEntry_report (hbin : (repairBinary rbinary acts[i]?).isSome = true) (made : List (Source × Made)) :
    ofEntry i (made.map (report rbinary acts)) =
      ((made.filter fun d => d.1 = .entry i).map (·.2)).map bareMade := by
  unfold ofEntry
  rw [List.filter_map, List.map_map, List.map_map]
  apply List.map_congr_left
  intro d hd
  have hsource : d.1 = .entry i := of_decide_eq_true (List.mem_filter.mp hd).2
  refine report_made ?_
  rw [hsource]
  exact hbin

end Reports

theorem clocked_of_sublist {own calls : List ActionCall} (h : Clocked calls)
    (hsub : (own.map (·.now)).Sublist (calls.map (·.now))) : Clocked own := by
  have hmem : ∀ c ∈ own, ∃ c' ∈ calls, c'.now = c.now := fun c hc =>
    List.mem_map.mp (hsub.subset (List.mem_map_of_mem hc))
  refine ⟨fun c hc => ?_, ?_, fun a ha b hb => ?_⟩
  · obtain ⟨c', hc', hnow⟩ := hmem c hc
    exact hnow ▸ h.pos c' hc'
  · have hmono : (own.map (·.now)).Pairwise (· ≤ ·) := (List.pairwise_map.mpr h.mono).sublist hsub
    exact List.pairwise_map.mp hmono
  · obtain ⟨a', ha', hanow⟩ := hmem a ha
    obtain ⟨b', hb', hbnow⟩ := hmem b hb
    rw [← hanow, ← hbnow]
    exact h.span a' ha' b' hb'

/-! ## Whole runs -/

/-- The result asks for a reboot, or the fault is overdue and the repairs are used up. -/
def Demands (cfg : Config) (made : List Made) (c : ActionCall) : Prop :=
  unconditional c.result = true ∨ Overdue cfg made c ∧ cfg.repairMax ≤ repairsSinceOk made

/-- What a report of an entry says, by the reports of the entry before it. -/
structure InTime (cfg : Config) (earlier : List Made) (d : Report) (down : Option Int) (last : Prop) : Prop where
  repairs : d.forked = true ↔ Overdue cfg earlier d.call ∧ (repairsSinceOk earlier : Int) < cfg.repairMax
  asks : cfg.noAct = false → Demands cfg earlier d.call → last ∧ down = some d.result
  cause : ∀ code, last → down = some code →
    Demands cfg earlier d.call ∧ code = d.result ∨ d.forked = true ∧ code ≠ enoerr

/-- The specification of the call, from that of the entry alone. -/
theorem exact_at (cfg : Config) (hret : 0 < cfg.retryTimeout) (hmax : 0 < cfg.repairMax) {rbinary : Option CString}
    {acts : List Entry} {i : Nat} {name : CString} {version : Int} (hi : acts[i]? = some (freshEntry name version))
    {calls : List ActionCall} {later earlier : List (Source × Made)} {d : Source × Made}
    (hmade : (mainAfter cfg rbinary acts calls).made = later ++ d :: earlier) (hd : d.1 = .entry i)
    (hlen : ((mainAfter cfg rbinary acts calls).of (.entry i)).length < 2 ^ 31)
    (hclock : Clocked (((mainAfter cfg rbinary acts calls).made.map (·.2.call)).reverse)) :
    Exact cfg ((earlier.filter fun d => d.1 = .entry i).map (·.2)) d.2.call ⟨none, d.2.repaired, d.2.request⟩ := by
  obtain ⟨own, halone⟩ := entry_alone cfg rbinary hi calls
  have hown : own.Sublist ((mainAfter cfg rbinary acts calls).made.map (·.2.call)).reverse := by
    have hcalls := made_calls cfg rbinary ⟨freshEntry name version, []⟩ own
    rw [← halone.made, List.map_nil, List.append_nil] at hcalls
    rw [← List.reverse_sublist, List.reverse_reverse, ← hcalls]
    unfold MainState.of
    rw [List.map_map]
    exact List.filter_sublist.map _
  have hcount : own.length < 2 ^ 31 := by
    have hcalls := congrArg List.length (made_calls cfg rbinary ⟨freshEntry name version, []⟩ own)
    rw [← halone.made, List.map_nil, List.append_nil, List.length_map, List.length_reverse] at hcalls
    omega
  have hsplit : (mainAfter cfg rbinary acts calls).of (.entry i) =
      (later.filter fun d => d.1 = .entry i).map (·.2) ++
        d.2 :: (earlier.filter fun d => d.1 = .entry i).map (·.2) := by
    unfold MainState.of
    rw [hmade, List.filter_append, List.map_append, List.filter_cons_of_pos (by simpa using hd), List.map_cons]
  rw [halone.made] at hsplit
  obtain ⟨pre, c, post, rfl, hpre, hc⟩ := retry_made_split hsplit
  have hfit : AllFit cfg rbinary ⟨freshEntry name version, []⟩ (pre ++ [c]) := by
    apply allFit_of_length
    rw [List.length_append, List.length_cons] at hcount
    rw [List.length_append, List.length_singleton, List.length_nil]
    omega
  have hexact := exact_after hret hmax (tracks_fresh hmax name version) pre c post
    (clocked_of_sublist hclock (hown.map _)) hfit
  dsimp only at hexact
  rw [hpre] at hexact
  rw [hc]
  exact ⟨hexact.repairs, hexact.answer, hexact.requests, hexact.noOther⟩

theorem demands_bare {cfg : Config} {made : List Made} {c : ActionCall} :
    Demands cfg (made.map bareMade) (bare c) ↔ Demands cfg made c := by
  unfold Demands
  rw [overdue_bare, repairsSinceOk_bare]
  rfl

/-- `down` is the code of the machine's last request. -/
def DownAs (cfg : Config) (rbinary : Option CString) (acts : List Entry) (calls : List ActionCall)
    (down : Option Int) : Prop :=
  ∀ code, down = some code ↔
    (mainAfter cfg rbinary acts calls).made.head?.map (·.2.request) = some (some (.doShutdown code))

theorem inTime_of_exact {cfg : Config} {rbinary : Option CString} {acts : List Entry} {calls : List ActionCall}
    {made : List Made} {later earlier : List (Source × Made)} {d : Source × Made} {down : Option Int}
    (hexact : Exact cfg made d.2.call ⟨none, d.2.repaired, d.2.request⟩)
    (hmade : (mainAfter cfg rbinary acts calls).made = later ++ d :: earlier)
    (hbin : (repairBinary rbinary (d.1.act acts)).isSome = true) (hdown : DownAs cfg rbinary acts calls down) :
    InTime cfg (made.map bareMade) (report rbinary acts d) down (later = []) := by
  have hcall : (report rbinary acts d).call = bare d.2.call := rfl
  have hforked : (report rbinary acts d).forked = d.2.repaired.isSome := by
    unfold report
    rw [hbin, Bool.and_true]
  have hlast : later = [] → ∀ code, down = some code ↔ d.2.request = some (.doShutdown code) := by
    rintro rfl code
    rw [hdown code, hmade]
    exact Option.some_inj
  refine ⟨?_, fun hact hdemands => ?_, fun code hlater hcode => ?_⟩
  · rw [hforked, hcall, overdue_bare, repairsSinceOk_bare]
    exact hexact.repairs
  · rw [hcall, demands_bare] at hdemands
    have hasks : Asks cfg made d.2.call d.2.repaired d.2.call.result := by
      rcases hdemands with hnow | hused
      · exact Or.inl ⟨hnow, rfl⟩
      · exact Or.inr (Or.inr ⟨hused.1, hused.2, rfl⟩)
    have hrequest : d.2.request = some (.doShutdown d.2.call.result) := by
      refine ((hexact.requests _).mpr hasks).trans ?_
      rw [Config.request, hact]
      rfl
    have hlater := (shutdown_last calls later earlier d _ hmade hrequest).1
    exact ⟨hlater, (hlast hlater _).mpr hrequest⟩
  · have hrequest := (hlast hlater code).mp hcode
    obtain ⟨code', hcode'⟩ := hexact.noOther _ hrequest
    have hasks : Asks cfg made d.2.call d.2.repaired code := by
      apply (hexact.requests code).mp
      rw [show (Outcome.mk none d.2.repaired d.2.request).request = d.2.request from rfl, hrequest, hcode']
      unfold Config.request at hcode' ⊢
      split at hcode'
      · cases hcode'
      · rw [Request.doShutdown.inj hcode']
    rw [hcall, demands_bare, hforked]
    rcases hasks with ⟨hnow, rfl⟩ | ⟨answer, hanswer, hne, rfl⟩ | ⟨hover, hused, rfl⟩
    · exact Or.inl ⟨Or.inl hnow, rfl⟩
    · refine Or.inr ⟨?_, hne⟩
      rw [hanswer]
      rfl
    · exact Or.inl ⟨Or.inr ⟨hover, hused⟩, rfl⟩

/-- A run that goes on has no request as its last one. -/
theorem downAs_none {cfg : Config} {rbinary : Option CString} {acts : List Entry} {calls : List ActionCall}
    (hup : (mainAfter cfg rbinary acts calls).down = false) : DownAs cfg rbinary acts calls none := by
  intro code
  refine ⟨nofun, fun h => ?_⟩
  cases hmade : (mainAfter cfg rbinary acts calls).made with
  | nil =>
    rw [hmade] at h
    cases h
  | cons d earlier =>
    rw [hmade] at h
    have hdown := (shutdown_last calls [] earlier d code hmade (Option.some.inj h)).2
    rw [hup] at hdown
    cases hdown

/-! The entries the loop starts with are those of the configuration, with nothing counted. -/

/-- The list has only entries with the timer off and nothing counted. -/
def Fresh (list : List ListEntry) : Prop := ∀ e ∈ list, e.lastTime = 0 ∧ e.repairCount = 0

def AllFresh (g : Globals) : Prop := ∀ v, Fresh (g (.list v))

theorem fresh_addList {list : List ListEntry} (h : Fresh list) (name : CString) (version : Int) :
    Fresh (addList list name version) := by
  intro e he
  rcases List.mem_append.mp he with he | he
  · exact h e he
  · rw [List.mem_singleton.mp he]
    exact ⟨rfl, rfl⟩

theorem fresh_setMtime {list : List ListEntry} (h : Fresh list) (itmp : Int) : Fresh (setMtime itmp list) := by
  unfold setMtime
  split
  · exact h
  · next ptr hlast =>
    intro e he
    rcases List.mem_append.mp he with he | he
    · exact h e ((List.dropLast_sublist list).subset he)
    · rw [List.mem_singleton.mp he]
      exact h ptr (List.mem_of_getLast? hlast)

theorem AllFresh.setList {g : Globals} (h : AllFresh g) {v : ListVar} {list : List ListEntry} (hlist : Fresh list) :
    AllFresh (g.setList v list) := by
  intro w
  by_cases hw : w = v
  · rw [hw, Globals.setList, Function.update_self]
    exact hlist
  · rw [Globals.setList, Function.update_of_ne (by simpa using hw)]
    exact h w

theorem AllFresh.setInt {g : Globals} (h : AllFresh g) (v : IntVar) (n : Int) : AllFresh (g.setInt v n) := by
  intro w
  have hne : Var.list w ≠ .int v := nofun
  rw [Globals.setInt, Function.update_of_ne hne]
  exact h w

theorem AllFresh.setStr {g : Globals} (h : AllFresh g) (v : StrVar) (str : Option CString) :
    AllFresh (g.setStr v str) := by
  intro w
  have hne : Var.list w ≠ .str v := nofun
  rw [Globals.setStr, Function.update_of_ne hne]
  exact h w

theorem AllFresh.read {g g' : Globals} (h : AllFresh g) {target : Target} {name arg val : CString}
    (hread : target.read name arg val g = some g') : AllFresh g' := by
  cases target with
  | list v =>
    obtain ⟨list, hlist, rfl⟩ := Option.map_eq_some_iff.mp hread
    refine h.setList ?_
    unfold readListFunc at hlist
    repeat' split at hlist
    all_goals cases hlist
    · exact fresh_addList (h v) _ _
    · exact h v
  | change =>
    obtain ⟨itmp, -, rfl⟩ := Option.map_eq_some_iff.mp hread
    exact h.setList (fresh_setMtime (h _) itmp)
  | logtick =>
    obtain ⟨n, -, rfl⟩ := Option.map_eq_some_iff.mp hread
    exact (h.setInt .logtick n).setInt .ticker n
  | int v =>
    obtain ⟨n, -, rfl⟩ := Option.map_eq_some_iff.mp hread
    exact h.setInt v n
  | string v =>
    obtain ⟨str, -, rfl⟩ := Option.map_eq_some_iff.mp hread
    exact h.setStr v str
  | yesNo v =>
    obtain ⟨n, -, rfl⟩ := Option.map_eq_some_iff.mp hread
    exact h.setInt v n
  | ynAuto v =>
    obtain ⟨n, -, rfl⟩ := Option.map_eq_some_iff.mp hread
    exact h.setInt v n

theorem AllFresh.readLine {g : Globals} (h : AllFresh g) (line : CString) : AllFresh (readLine g line) := by
  unfold Watchdog.readLine
  split
  · exact h
  · unfold readOption
    cases hread : options.findSome? _ with
    | none => exact h
    | some g' =>
      obtain ⟨o, -, ho⟩ := List.exists_of_findSome?_eq_some hread
      exact h.read ho

theorem fresh_addTestBinary (env : ConfEnv) (path : CString) {list : List ListEntry} (h : Fresh list)
    (dName : CString) : Fresh (addTestBinary env path list dName) := by
  unfold addTestBinary
  dsimp only
  repeat' split
  all_goals first | exact h | exact fresh_addList h _ _

theorem fresh_addTestBinaries (env : ConfEnv) (path : Option CString) {list : List ListEntry} (h : Fresh list) :
    Fresh (addTestBinaries env path list) := by
  unfold addTestBinaries
  split
  · exact h
  · next path =>
    split
    · exact h
    · split
      · exact h
      · split
        · exact h
        · next names _ =>
          exact Runs.run_inv (I := Fresh) (fun _ dName h _ => fresh_addTestBinary env path h dName) h
            (Runs.allowed_of_forall (P := fun _ => True) fun _ _ => trivial)

theorem allFresh_of_read {env : ConfEnv} {o : Options} {configfile : Option CString} {g : Globals}
    (h : readConfig env (startGlobals o) configfile = .ok g) : AllFresh g := by
  have hdefaults : AllFresh defaults := fun v e he => by cases v <;> cases he
  have hstart : AllFresh (startGlobals o) := (hdefaults.setInt _ _).setInt _ _
  cases configfile with
  | none => cases h
  | some text =>
    have hlines : AllFresh (Runs.run readLine (((startGlobals o).setInt .maxload15 0).setInt .maxload5 0)
        (getLines text)) :=
      Runs.run_inv (fun _ line h _ => h.readLine line) ((hstart.setInt _ _).setInt _ _)
        (Runs.allowed_of_forall (P := fun _ => True) fun _ _ => trivial)
    obtain ⟨-, rfl⟩ := finish_ok h
    intro v
    have h₅ : Var.list v ≠ .int .maxload5 := nofun
    have h₁₅ : Var.list v ≠ .int .maxload15 := nofun
    rw [deriveLoads_frame _ h₅ h₁₅]
    exact hlines.setList (fresh_addTestBinaries env _ (hlines _)) v

theorem entries_fresh {g : Globals} (h : AllFresh g) {i : Nat} {e : Entry} (hi : (entries g)[i]? = some e) :
    e = freshEntry e.name e.version := by
  obtain ⟨entry, hmem, rfl⟩ := List.mem_map.mp (List.mem_of_getElem? hi)
  obtain ⟨v, -, hmem⟩ := List.mem_flatMap.mp hmem
  obtain ⟨htime, hcount⟩ := h v entry hmem
  obtain ⟨⟨name, version, lastTime, repairCount⟩, mtime⟩ := entry
  obtain rfl : lastTime = 0 := htime
  obtain rfl : repairCount = 0 := hcount
  rfl

theorem allFresh_zeroRetry {g : Globals} (h : AllFresh g) : AllFresh (zeroRetry g) := by
  unfold zeroRetry
  split
  · exact h.setInt _ _
  · exact h

/-- **The entries of the running daemon.** With every configuration that has a retry time-out and
a limit of repairs, in every run of the loop of `main`: for every report of an entry that has a
repair program, the program is started exactly when the fault is overdue and the repairs are not
used up; a demand for a shutdown is met at once, with the result as its code; and there is no
other reason for one but a failed repair. The clock goes on, and the entry's calls can be counted
in an `int`. -/
theorem repairs_in_time (env : ConfEnv) (o : Options) (configfile : Option CString) (g₀ : Globals)
    (hread : readConfig env (startGlobals o) configfile = .ok g₀)
    (hret : 0 < (zeroRetry g₀ (.int .retryTimeout) : Int)) (hmax : 0 < (zeroRetry g₀ (.int .repairMax) : Int))
    (cycles : Nat) (answers : Nat → (q : Call) → Answer q) (n i : Nat) (e : Entry)
    (hi : (entries (zeroRetry g₀))[i]? = some e)
    (hbin : (repairBinary (zeroRetry g₀ (.str .repairBin)) (some e)).isSome = true) :
    let m := seen ((mainLoop o (zeroRetry g₀) cycles (State.first (zeroRetry g₀))).trace answers n)
    Clocked (m.reports.reverse.map Report.call) → (ofEntry i m.reports).length < 2 ^ 31 →
      ∀ later d earlier, m.reports = later ++ d :: earlier → d.source = .entry i →
        InTime (config o (zeroRetry g₀)) (ofEntry i earlier) d m.down (later = []) := by
  rw [← hi] at hbin
  rw [entries_fresh (allFresh_zeroRetry (allFresh_of_read hread)) hi] at hi
  generalize zeroRetry g₀ = g at hret hmax hi hbin ⊢
  intro m hclock hlen later d earlier hsplit hd
  obtain ⟨calls, hreports, hend⟩ := loop_refines o g (State.first g) cycles answers n
  change m.reports = (mainAfter (config o g) (g (.str .repairBin)) (entries g) calls).made.map
    (report (g (.str .repairBin)) (entries g)) at hreports
  have hdown : DownAs (config o g) (g (.str .repairBin)) (entries g) calls m.down := by
    split at hend
    · rw [show m.down = none from hend.2.1]
      exact downAs_none hend.1
    · obtain ⟨-, code, hcode, hhead⟩ := hend
      intro code'
      rw [show m.down = some code from hcode]
      refine Iff.trans ?_ (Eq.congr_left hhead.symm)
      simp
  rw [hreports] at hsplit hclock hlen
  rw [ofEntry_report hbin, List.length_map] at hlen
  obtain ⟨later', rest, hmade, rfl, hrest⟩ := List.map_eq_append_iff.mp hsplit
  obtain ⟨d', earlier', rfl, rfl, rfl⟩ := List.map_eq_cons_iff.mp hrest
  have hclock' : Clocked
      (((mainAfter (config o g) (g (.str .repairBin)) (entries g) calls).made.map (·.2.call)).reverse) := by
    refine clocked_of_sublist hclock ?_
    rw [← List.map_reverse, ← List.map_reverse, List.map_map, List.map_map, List.map_map]
    exact List.Sublist.refl _
  have hd' : d'.1 = .entry i := hd
  have hexact := exact_at (config o g) hret hmax hi hmade hd' hlen hclock'
  have hbin' : (repairBinary (g (.str .repairBin)) (d'.1.act (entries g))).isSome = true := by
    rw [hd']
    exact hbin
  have hintime := inTime_of_exact hexact hmade hbin' hdown
  rw [← ofEntry_report hbin earlier'] at hintime
  rwa [List.map_eq_nil_iff]

/-- A file that stays away, with twenty seconds from one call to the next. -/
def broken : Nat → (q : Call) → Answer q
  | _, .check (.entry _) => ((5 : Int), 10)
  | n, .time => (((20 * n + 20 : Nat) : Int), 10)
  | n, q => calm n q

/-- What is read from a file that asks for it. -/
def brokenConfig : Except Fatal Globals :=
  readConfig ⟨true, fun _ => none, fun _ => none⟩ (startGlobals {}) (some "file = /f\nrepair-binary = r\n".toList)

def brokenGlobals : Globals :=
  match brokenConfig with
  | .ok g => zeroRetry g
  | .error _ => defaults

def brokenSeen : Seen := seen ((mainLoop {} brokenGlobals 2 (State.first brokenGlobals)).trace broken 0)

/-- In the second cycle the fault is overdue, and the repair program is started. -/
theorem repairs_in_time_broken :
    ∃ d earlier, brokenSeen.reports = d :: earlier ∧ d.forked = true ∧
      Overdue (config {} brokenGlobals) (ofEntry 0 earlier) d.call := by
  have hclock : Clocked (brokenSeen.reports.reverse.map Report.call) :=
    ⟨by decide +kernel, by decide +kernel, by decide +kernel⟩
  have hsource : brokenSeen.reports.head?.map (fun d => (d.source, d.forked)) = some (.entry 0, true) := by
    decide +kernel
  cases hreports : brokenSeen.reports with
  | nil =>
    rw [hreports] at hsource
    cases hsource
  | cons d earlier =>
    rw [hreports] at hsource
    obtain ⟨hd, hforked⟩ := Prod.mk.inj (Option.some.inj hsource)
    have hintime := repairs_in_time _ {} _ _ (rfl : brokenConfig = .ok _) (by decide +kernel) (by decide +kernel) 2
      broken 0 0 { name := "/f".toList, version := 0 } (by decide +kernel) (by decide +kernel) hclock
      (by decide +kernel) [] d earlier hreports hd
    exact ⟨d, earlier, rfl, hforked, (hintime.repairs.mp hforked).1⟩

end Watchdog.Daemon
