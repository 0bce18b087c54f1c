import WatchdogDaemon.Daemon.Lifecycle

/- The main loop refines the machine of `mainStep`.

   `NoEntry` describes the loop as a machine that takes one result after another and calls
   `wd_action` for each, on the entry of the check it is from. `mainLoop` is the loop with all
   its calls. What a trace shows of a call of `wd_action` is a report: the check, its result,
   the clock, and whether a repair program was started.

   What is proved: `loop_refines` — for every run of the loop there are results with which the
   machine makes the same reports, in the same order; it is down exactly when the run has shut
   the system down, with the same code, and otherwise has the same entries.

   Correspondence:
     a trace                                ↔ `seen`
     the calls of the machine               ↔ `report` -/
namespace Watchdog.Daemon
open CallTree

/-! ## What a trace shows -/

/-- A call of `wd_action`: the check, its result, the clock, and whether a repair program was
started. -/
structure Report where
  source : Source
  result : Int
  now : Int
  forked : Bool
  deriving DecidableEq

/-- The result that came last, the reports, the last one first, and the code of a shutdown. -/
structure Seen where
  last : Source × Int := (.global .keepAlive, enoerr)
  reports : List Report := []
  down : Option Int := none

/-- A repair program belongs to the last report. -/
def markForked : List Report → List Report
  | [] => []
  | d :: rest => { d with forked := true } :: rest

def Seen.next (m : Seen) : (q : Call) → Answer q → Seen
  | .keepAlive, (result, _) => { m with last := (.global .keepAlive, result) }
  | .check source, (result, _) => { m with last := (source, result) }
  | .time, (now, _) => { m with reports := ⟨m.last.1, m.last.2, now, false⟩ :: m.reports }
  | .fork, _ => { m with reports := markForked m.reports }
  | .doShutdown code, _ => { m with down := some code }
  | _, _ => m

def seen (tr : List (Sigma Answer)) : Seen := tr.foldl (fun m e => m.next e.1 e.2) {}

def seeing : Monitor Call Answer Seen where
  next := Seen.next
  ok _ _ := True
  allows _ _ _ := True

/-- A call of the machine as a report. A repair without a program starts none. -/
def report (rbinary : Option CString) (acts : List Entry) (d : Source × Made) : Report where
  source := d.1
  result := d.2.call.result
  now := d.2.call.now
  forked := d.2.repaired.isSome && (repairBinary rbinary (d.1.act acts)).isSome

/-! ## The machine -/

section Machine
variable {cfg : Config} {rbinary : Option CString} {acts : List Entry}

theorem mainAfter_concat (calls : List ActionCall) (c : ActionCall) :
    mainAfter cfg rbinary acts (calls ++ [c]) = mainStep cfg rbinary acts.length (mainAfter cfg rbinary acts calls) c :=
  Runs.run_append _ _ _ _

/-- What `repair()` is told by: it does not change. -/
def entryKey (act : Entry) : CString × Int := (act.name, act.version)

theorem retryTimer_key (cfg : Config) (now : Int) (act : Option Entry) :
    (retryTimer cfg now act).1.map entryKey = act.map entryKey := by
  unfold retryTimer
  split
  · rfl
  · split
    · split <;> rfl
    · rfl

theorem countRepair_key (cfg : Config) (act : Option Entry) :
    (countRepair cfg act).1.map entryKey = act.map entryKey := by
  unfold countRepair
  split
  · rfl
  · split
    · split <;> rfl
    · rfl

/-- A call that is settled repairs nothing, and leaves the entry its name. -/
theorem plan_settled_key {now result : Int} {act : Option Entry} {out : Outcome}
    (h : plan cfg now result act = .settled out) :
    out.repaired = none ∧ out.act.map entryKey = act.map entryKey := by
  unfold plan at h
  repeat' split at h
  all_goals cases h
  · refine ⟨rfl, ?_⟩
    rw [Option.map_map]
    rfl
  · exact ⟨rfl, rfl⟩
  · exact ⟨rfl, rfl⟩
  · exact ⟨rfl, (countRepair_key cfg _).trans (retryTimer_key cfg now act)⟩
  · exact ⟨rfl, retryTimer_key cfg now act⟩

theorem plan_tryRepair_key {now result : Int} {act act' : Option Entry}
    (h : plan cfg now result act = .tryRepair act') : act'.map entryKey = act.map entryKey := by
  unfold plan at h
  repeat' split at h
  all_goals cases h
  exact (countRepair_key cfg _).trans (retryTimer_key cfg now act)

theorem wdAction_key (cfg : Config) (rbinary : Option CString) (c : ActionCall) (act : Option Entry) :
    (Id.run (wdAction (fun _ _ _ _ => pure c.answer) cfg c.now c.result rbinary act)).act.map entryKey =
      act.map entryKey := by
  rw [wdAction_eq]
  split
  · next out hplan => exact (plan_settled_key hplan).2
  · next act' hplan => exact plan_tryRepair_key hplan

theorem put_keys {source : Source} {act : Option Entry}
    (h : act.map entryKey = (source.act acts).map entryKey) :
    (source.put acts act).map entryKey = acts.map entryKey := by
  cases source with
  | global g => rfl
  | entry i =>
    cases act with
    | none => rfl
    | some act =>
      have hi : acts[i]?.map entryKey = some (entryKey act) := h.symm
      show (acts.set i act).map entryKey = acts.map entryKey
      rw [List.map_set]
      apply List.ext_getElem?
      intro j
      rw [List.getElem?_set, List.getElem?_map]
      split
      · next hij =>
        subst hij
        rw [hi]
        split
        · rfl
        · next hlen =>
          rw [List.length_map, Nat.not_lt] at hlen
          rw [List.getElem?_eq_none hlen] at hi
          cases hi
      · rfl

theorem mainAfter_keys (cfg : Config) (rbinary : Option CString) (acts : List Entry) (calls : List ActionCall) :
    (mainAfter cfg rbinary acts calls).acts.map entryKey = acts.map entryKey := by
  refine Runs.run_inv (I := fun s : MainState => s.acts.map entryKey = acts.map entryKey) ?_ rfl
    (Runs.allowed_of_forall (P := fun _ => True) fun _ _ => trivial)
  intro s c hs _
  unfold mainStep
  split
  · exact hs
  · exact (put_keys (wdAction_key cfg rbinary c _)).trans hs

theorem repairBinary_key {act act' : Option Entry} (h : act.map entryKey = act'.map entryKey) :
    repairBinary rbinary act = repairBinary rbinary act' := by
  cases act with
  | none =>
    cases act' with
    | none => rfl
    | some act' => cases h
  | some act =>
    cases act' with
    | none => cases h
    | some act' =>
      obtain ⟨hname, hversion⟩ := Prod.mk.inj (Option.some.inj h)
      simp only [repairBinary, hname, hversion]

theorem act_keys {acts' : List Entry} (h : acts'.map entryKey = acts.map entryKey) (source : Source) :
    (source.act acts').map entryKey = (source.act acts).map entryKey := by
  cases source with
  | global g => rfl
  | entry i =>
    show acts'[i]?.map entryKey = acts[i]?.map entryKey
    rw [← List.getElem?_map, h, List.getElem?_map]

end Machine

/-! ## The place in the cycle -/

/-- After `i` calls of `wd_action`, `rest` is left of the cycle. -/
def At (n i : Nat) (rest : List Source) : Prop :=
  ∃ k done, cycleOrder n = done ++ rest ∧ i = (cycleOrder n).length * k + done.length

section At
variable {n i : Nat} {src : Source} {rest : List Source}

theorem At.sourceAt (h : At n i (src :: rest)) : sourceAt n i = src := by
  obtain ⟨k, done, hcycle, rfl⟩ := h
  have hlt : done.length < (cycleOrder n).length := by
    rw [hcycle, List.length_append, List.length_cons]
    omega
  unfold Watchdog.sourceAt
  rw [Nat.mul_add_mod, Nat.mod_eq_of_lt hlt, List.getD_eq_getElem?_getD, hcycle]
  simp

theorem At.next (h : At n i (src :: rest)) : At n (i + 1) rest := by
  obtain ⟨k, done, hcycle, rfl⟩ := h
  refine ⟨k, done ++ [src], ?_, ?_⟩
  · rw [List.append_assoc]
    exact hcycle
  · rw [List.length_append, List.length_singleton]
    omega

theorem at_zero (n : Nat) : At n 0 (cycleOrder n) := ⟨0, [], rfl, rfl⟩

theorem At.again (h : At n i []) : At n i (cycleOrder n) := by
  obtain ⟨k, done, hcycle, rfl⟩ := h
  rw [List.append_nil] at hcycle
  refine ⟨k + 1, [], rfl, ?_⟩
  rw [← hcycle, Nat.mul_add, Nat.mul_one]
  rfl

end At

/-! ## The simulation -/

section Simulation
variable {cfg : Config} {rbinary : Option CString} {acts₀ : List Entry}

/-- The machine has made the reports that were seen. -/
def SameReports (cfg : Config) (rbinary : Option CString) (acts₀ : List Entry) (calls : List ActionCall)
    (m : Seen) : Prop :=
  m.reports = (mainAfter cfg rbinary acts₀ calls).made.map (report rbinary acts₀)

/-- The machine has the entries `acts`, and `rest` is left of its cycle. -/
structure Simulates (cfg : Config) (rbinary : Option CString) (acts₀ : List Entry) (rest : List Source)
    (acts : List Entry) (calls : List ActionCall) (m : Seen) : Prop where
  reports : SameReports cfg rbinary acts₀ calls m
  entries : (mainAfter cfg rbinary acts₀ calls).acts = acts
  up : (mainAfter cfg rbinary acts₀ calls).down = false
  place : At acts₀.length (mainAfter cfg rbinary acts₀ calls).made.length rest
  quiet : m.down = none

abbrev Simulated (cfg : Config) (rbinary : Option CString) (acts₀ : List Entry) (rest : List Source)
    (acts : List Entry) (m : Seen) : Prop :=
  ∃ calls, Simulates cfg rbinary acts₀ rest acts calls m

/-- The machine is down, and so is the system, with the same code. -/
def Fallen (cfg : Config) (rbinary : Option CString) (acts₀ : List Entry) (m : Seen) : Prop :=
  ∃ calls code, SameReports cfg rbinary acts₀ calls m ∧ (mainAfter cfg rbinary acts₀ calls).down = true ∧
    m.down = some code ∧
    (mainAfter cfg rbinary acts₀ calls).made.head?.map (·.2.request) = some (some (.doShutdown code))

/-- A call of the machine, with what `wd_action` makes of it. -/
theorem mainAfter_call {calls : List ActionCall} {c : ActionCall} {source : Source} {rest : List Source}
    {acts : List Entry} {m : Seen} (h : Simulates cfg rbinary acts₀ (source :: rest) acts calls m)
    {out : Outcome} (hout : Id.run (wdAction (fun _ _ _ _ => pure c.answer) cfg c.now c.result rbinary (source.act acts))
      = out) :
    (mainAfter cfg rbinary acts₀ (calls ++ [c])).acts = source.put acts out.act ∧
      (mainAfter cfg rbinary acts₀ (calls ++ [c])).made =
        (source, ⟨c, out.repaired, out.request⟩) :: (mainAfter cfg rbinary acts₀ calls).made ∧
      ((mainAfter cfg rbinary acts₀ (calls ++ [c])).down = true ↔ ∃ code, out.request = some (.doShutdown code)) := by
  have hsource : (mainAfter cfg rbinary acts₀ calls).source acts₀.length = source := h.place.sourceAt
  rw [mainAfter_concat]
  unfold mainStep
  rw [h.up, if_neg Bool.false_ne_true]
  unfold MainState.action
  rw [hsource, h.entries, hout]
  refine ⟨rfl, rfl, ?_⟩
  dsimp only
  split
  · next code hcode => exact ⟨fun _ => ⟨code, hcode⟩, fun _ => rfl⟩
  · next hother => exact ⟨nofun, fun hcode => hcode.elim fun code hcode => absurd hcode (hother code)⟩

theorem Simulates.sameLength {rest : List Source} {acts : List Entry} {calls : List ActionCall} {m : Seen}
    (h : Simulates cfg rbinary acts₀ rest acts calls m) : acts.length = acts₀.length := by
  have hkeys := congrArg List.length (mainAfter_keys cfg rbinary acts₀ calls)
  rwa [List.length_map, List.length_map, h.entries] at hkeys

/-- `repair()` starts a program if there is one. -/
theorem wp_repair {E : Seen → Prop} (rb : Option CString) (result : Int) {m : Seen} {d : Report}
    {rest : List Report} (hm : m.reports = d :: rest) (hd : d.forked = false) :
    Wp seeing (fun _ m' => m'.reports = { d with forked := rb.isSome } :: rest ∧ m'.down = m.down) E
      (repair repairSys cfg rb result) m := by
  unfold repair
  cases rb with
  | none =>
    refine ⟨?_, rfl⟩
    rw [hm, Option.isSome_none, ← hd]
  | some rb =>
    rw [Option.isNone_some, if_neg Bool.false_ne_true]
    refine ⟨trivial, ?_⟩
    rintro ⟨(child : Except Errno Int), t⟩ -
    have hforked : (seeing.next m .fork (child, t)).reports = { d with forked := true } :: rest ∧
        (seeing.next m .fork (child, t)).down = m.down := by
      refine ⟨?_, rfl⟩
      show markForked m.reports = _
      rw [hm]
      rfl
    cases child with
    | error err => exact hforked
    | ok pid =>
      -- The polls leave the reports alone.
      let S : Call → Prop := fun q => q = .sleep 1 ∨ q = .keepAlive ∨ ∃ block, q = .waitpid pid block
      have hkeep : ∀ (m' : Seen) q, S q → (m'.reports = { d with forked := true } :: rest ∧ m'.down = m.down) →
          seeing.ok m' q ∧ ∀ r, (seeing.next m' q r).reports = { d with forked := true } :: rest ∧
            (seeing.next m' q r).down = m.down := by
        rintro m' q (rfl | rfl | ⟨block, rfl⟩) hm'
        all_goals exact ⟨trivial, fun _ => hm'⟩
      dsimp only
      split
      · have hpolls : Only S False (pollRepair (repairSys.waitpid pid false) cfg.repairTimeout.toNat 0) :=
          only_pollRepair (Or.inl rfl) (Or.inr (Or.inl rfl)) (Or.inr (Or.inr ⟨false, rfl⟩)) _ 0
        exact (hpolls.wp hkeep (fun h => h.elim) hforked).bind fun _ _ h => h
      · have hwait : Only S False (repairSys.waitpid pid true 0) := only_perform (Or.inr (Or.inr ⟨true, rfl⟩))
        exact (hwait.wp hkeep (fun h => h.elim) hforked).bind fun _ _ h => h

end Simulation

section Loop
variable {o : Options} {g : Globals} {acts₀ : List Entry}

/-- What becomes of a call, once `wd_action` has come to its end. -/
theorem wp_request {src : Source} {rest : List Source} {acts : List Entry} {calls : List ActionCall} {m₀ m : Seen}
    (h : Simulates (config o g) (g (.str .repairBin)) acts₀ (src :: rest) acts calls m₀) {c : ActionCall} {out : Outcome}
    (hout : Id.run (wdAction (fun _ _ _ _ => pure c.answer) (config o g) c.now c.result (g (.str .repairBin))
      (src.act acts)) = out)
    (hreports : m.reports = ⟨src, c.result, c.now,
      out.repaired.isSome && (repairBinary (g (.str .repairBin)) (src.act acts)).isSome⟩ :: m₀.reports)
    (hquiet : m.down = none) :
    Wp seeing (fun act m' => Simulated (config o g) (g (.str .repairBin)) acts₀ rest (src.put acts act) m')
      (Fallen (config o g) (g (.str .repairBin)) acts₀)
      (match out.request with
        | some (.doShutdown code) => do
          perform (.doShutdown code)
          .exit 1
        | _ => return out.act : P (Option Entry)) m := by
  obtain ⟨hacts, hmade, hdown⟩ := mainAfter_call h hout
  have hkey : repairBinary (g (.str .repairBin)) (src.act acts) = repairBinary (g (.str .repairBin)) (src.act acts₀) := by
    apply repairBinary_key
    apply act_keys
    rw [← h.entries]
    exact mainAfter_keys _ _ _ calls
  have hsame : ∀ m' : Seen, m'.reports = m.reports →
      SameReports (config o g) (g (.str .repairBin)) acts₀ (calls ++ [c]) m' := by
    intro m' hm'
    unfold SameReports
    rw [hm', hreports, hmade, hkey, h.reports]
    rfl
  split
  · next code hrequest =>
    refine ⟨trivial, fun _ _ => ⟨calls ++ [c], code, hsame _ rfl, hdown.mpr ⟨code, hrequest⟩, rfl, ?_⟩⟩
    rw [hmade, hrequest]
    rfl
  · next hrequest =>
    refine ⟨calls ++ [c], hsame m rfl, hacts, ?_, ?_, hquiet⟩
    · rw [Bool.eq_false_iff, ne_eq, hdown]
      exact fun hcode => hcode.elim hrequest
    · rw [hmade]
      exact h.place.next

/-- `wd_action` is one call of the machine. -/
theorem wp_action (src : Source) {rest : List Source} {acts : List Entry} {m : Seen} {result : Int}
    (h : Simulated (config o g) (g (.str .repairBin)) acts₀ (src :: rest) acts m) (hlast : m.last = (src, result)) :
    Wp seeing (fun act m' => Simulated (config o g) (g (.str .repairBin)) acts₀ rest (src.put acts act) m')
      (Fallen (config o g) (g (.str .repairBin)) acts₀) (action o g (src.act acts) result) m := by
  obtain ⟨calls, h⟩ := h
  refine ⟨trivial, ?_⟩
  rintro ⟨(now : Int), t⟩ -
  have hreports : (seeing.next m .time (now, t)).reports = ⟨src, result, now, false⟩ :: m.reports := by
    show ⟨m.last.1, m.last.2, now, false⟩ :: m.reports = _
    rw [hlast]
  show Wp seeing _ _ (wdAction _ _ _ _ _ _ >>= _) (seeing.next m .time (now, t))
  rw [wdAction_eq]
  split
  · next out hplan =>
    have hout : Id.run (wdAction (fun _ _ _ _ => pure enoerr) (config o g) now result (g (.str .repairBin))
        (src.act acts)) = out := by
      rw [wdAction_eq, hplan]
      rfl
    refine wp_request (c := ⟨result, now, enoerr⟩) h hout ?_ h.quiet
    rw [hreports, (plan_settled_key hplan).1]
    rfl
  · next act' hplan =>
    have hrepaired : Wp seeing (fun (out : Outcome) m' => ∃ answer, out = ⟨act', some answer, consider (config o g) answer⟩ ∧
        m'.reports = ⟨src, result, now, (repairBinary (g (.str .repairBin)) (src.act acts)).isSome⟩ :: m.reports ∧
        m'.down = none) (Fallen (config o g) (g (.str .repairBin)) acts₀)
        (repair repairSys (config o g) (repairBinary (g (.str .repairBin)) (src.act acts)) result >>= fun answer =>
          (pure ⟨act', some answer, consider (config o g) answer⟩ : P Outcome)) (seeing.next m .time (now, t)) := by
      apply (wp_repair _ result hreports rfl).bind
      intro answer m' hm'
      exact ⟨answer, rfl, hm'.1, hm'.2.trans h.quiet⟩
    apply hrepaired.bind
    rintro out m' ⟨answer, rfl, hm', hquiet⟩
    have hout : Id.run (wdAction (fun _ _ _ _ => pure answer) (config o g) now result (g (.str .repairBin))
        (src.act acts)) = ⟨act', some answer, consider (config o g) answer⟩ := by
      rw [wdAction_eq, hplan]
      rfl
    refine wp_request (c := ⟨result, now, answer⟩) h hout ?_ hquiet
    rw [hm']
    rfl

theorem wp_refresh {rest : List Source} {acts : List Entry} {m : Seen}
    (h : Simulated (config o g) (g (.str .repairBin)) acts₀ (.global .keepAlive :: rest) acts m) :
    Wp seeing (fun _ => Simulated (config o g) (g (.str .repairBin)) acts₀ rest acts)
      (Fallen (config o g) (g (.str .repairBin)) acts₀) (refresh o g) m := by
  refine ⟨trivial, ?_⟩
  rintro ⟨(result : Int), t⟩ -
  have h' : Simulated (config o g) (g (.str .repairBin)) acts₀ (.global .keepAlive :: rest) acts
      (seeing.next m .keepAlive (result, t)) :=
    h.imp fun _ h => ⟨h.reports, h.entries, h.up, h.place, h.quiet⟩
  exact (wp_action (.global .keepAlive) h' rfl).bind fun _ _ h => h

theorem wp_doCheck {src : Source} {rest : List Source} {acts : List Entry} {m : Seen}
    (h : Simulated (config o g) (g (.str .repairBin)) acts₀ (src :: .global .keepAlive :: rest) acts m) :
    Wp seeing (fun acts' => Simulated (config o g) (g (.str .repairBin)) acts₀ rest acts')
      (Fallen (config o g) (g (.str .repairBin)) acts₀) (doCheck o g src acts) m := by
  refine ⟨trivial, ?_⟩
  rintro ⟨(result : Int), t⟩ -
  have h' : Simulated (config o g) (g (.str .repairBin)) acts₀ (src :: .global .keepAlive :: rest) acts
      (seeing.next m (.check src) (result, t)) :=
    h.imp fun _ h => ⟨h.reports, h.entries, h.up, h.place, h.quiet⟩
  apply (wp_action src h' rfl).bind
  intro act m₁ h₁
  exact (wp_refresh h₁).bind fun _ _ h => h

/-- The checks of a cycle, each followed by a refresh. -/
theorem wp_checks {rest : List Source} : ∀ (sources : List Source) (acts : List Entry) (m : Seen),
    Simulated (config o g) (g (.str .repairBin)) acts₀
      (sources.flatMap (fun src => [src, .global .keepAlive]) ++ rest) acts m →
    Wp seeing (fun acts' => Simulated (config o g) (g (.str .repairBin)) acts₀ rest acts')
      (Fallen (config o g) (g (.str .repairBin)) acts₀)
      (sources.foldlM (fun acts src => doCheck o g src acts) acts) m
  | [], _, _, h => h
  | src :: sources, acts, m, h => by
    rw [List.foldlM_cons]
    apply (wp_doCheck h).bind
    intro acts' m' h'
    exact wp_checks sources acts' m' h'

/-- A call that is no part of `wd_action`. -/
theorem wp_other {rest : List Source} {acts : List Entry} {m : Seen} {q : Call}
    (hq : ∀ r, m.next q r = m) (h : Simulated (config o g) (g (.str .repairBin)) acts₀ rest acts m) :
    Wp seeing (fun _ => Simulated (config o g) (g (.str .repairBin)) acts₀ rest acts)
      (Fallen (config o g) (g (.str .repairBin)) acts₀) (perform q) m := by
  refine ⟨trivial, fun r _ => ?_⟩
  show Simulated _ _ _ _ _ (m.next q r)
  rw [hq]
  exact h

theorem wp_loopCycle {s : State} {m : Seen}
    (h : Simulated (config o g) (g (.str .repairBin)) acts₀ (cycleOrder acts₀.length) s.acts m) :
    Wp seeing (fun s' => Simulated (config o g) (g (.str .repairBin)) acts₀ (cycleOrder acts₀.length) s'.acts)
      (Fallen (config o g) (g (.str .repairBin)) acts₀) (cycle o g s) m := by
  have hlength : s.acts.length = acts₀.length := h.elim fun _ h => h.sameLength
  apply (wp_refresh h).bind
  intro _ m₁ h₁
  rw [← hlength, ← List.append_nil (List.flatMap _ _)] at h₁
  apply (wp_checks _ _ _ h₁).bind
  intro acts m₂ h₂
  apply (wp_other (fun _ => rfl) h₂).bind
  intro _ m₃ h₃
  apply (wp_other (fun _ => rfl) h₃).bind
  intro _ m₄ h₄
  apply (wp_other (fun _ => rfl) h₄).bind
  intro _ m₅ h₅
  have hagain : Simulated (config o g) (g (.str .repairBin)) acts₀ (cycleOrder acts₀.length) acts m₅ :=
    h₅.imp fun _ h => ⟨h.reports, h.entries, h.up, h.place.again, h.quiet⟩
  have htick : Wp seeing (fun s' m' => s'.acts = acts ∧
      Simulated (config o g) (g (.str .repairBin)) acts₀ (cycleOrder acts₀.length) acts m')
      (Fallen (config o g) (g (.str .repairBin)) acts₀) (logTick g { s with acts, count := s.count + 1 }) m₅ := by
    refine Wp.ite (fun _ => Wp.ite (fun _ => ?_) fun _ => ⟨rfl, hagain⟩) fun _ => ⟨rfl, hagain⟩
    exact (wp_other (fun _ => rfl) hagain).bind fun _ _ h => ⟨rfl, h⟩
  apply htick.bind
  rintro s' m₆ ⟨rfl, h₆⟩
  refine Wp.ite (fun _ => ?_) fun _ => h₆
  exact (wp_other (fun _ => rfl) h₆).bind fun _ _ h => h

theorem wp_loop : ∀ (cycles : Nat) (s : State) (m : Seen),
    Simulated (config o g) (g (.str .repairBin)) acts₀ (cycleOrder acts₀.length) s.acts m →
    Wp seeing (fun s' => Simulated (config o g) (g (.str .repairBin)) acts₀ (cycleOrder acts₀.length) s'.acts)
      (Fallen (config o g) (g (.str .repairBin)) acts₀) (mainLoop o g cycles s) m
  | 0, _, _, h => h
  | cycles + 1, s, m, h => by
    refine Wp.ite (fun _ => ?_) fun _ => h
    apply (wp_other (q := .running) (fun _ => rfl) h).bind
    intro (running : Bool) m' h'
    refine Wp.ite (fun _ => ?_) fun _ => h'
    exact (wp_loopCycle h').bind fun s' m'' h'' => wp_loop cycles s' m'' h''

end Loop

/-- **The loop refines the machine.** For every run of the loop there are results for the
machine with which it makes the reports of the run. If the run goes on, the machine is not down
and has its entries; if it ends in a shutdown, the machine's last call asks for the same. -/
theorem loop_refines (o : Options) (g : Globals) (s : State) (cycles : Nat)
    (answers : Nat → (q : Call) → Answer q) (n : Nat) :
    ∃ calls : List ActionCall,
      let abs := mainAfter (config o g) (g (.str .repairBin)) s.acts calls
      let tr := (mainLoop o g cycles s).trace answers n
      (seen tr).reports = abs.made.map (report (g (.str .repairBin)) s.acts) ∧
      match (mainLoop o g cycles s).result answers n with
      | some s' => abs.down = false ∧ (seen tr).down = none ∧ abs.acts = s'.acts
      | none => abs.down = true ∧
        ∃ code, (seen tr).down = some code ∧ abs.made.head?.map (·.2.request) = some (some (.doShutdown code)) := by
  have hstart : Simulated (config o g) (g (.str .repairBin)) s.acts (cycleOrder s.acts.length) s.acts {} :=
    ⟨[], rfl, rfl, rfl, at_zero _, rfl⟩
  have hloop := wp_loop cycles s {} hstart
  have hend := (hloop.sound answers n (Monitor.follows_of_allows (fun _ _ _ => trivial) _ _)).2
  have hseen : seeing.after {} ((mainLoop o g cycles s).trace answers n) =
      seen ((mainLoop o g cycles s).trace answers n) := rfl
  rw [hseen] at hend
  split at hend
  · next s' hresult =>
    obtain ⟨calls, h⟩ := hend
    refine ⟨calls, h.reports, ?_⟩
    rw [hresult]
    exact ⟨h.up, h.quiet, h.entries⟩
  · next hresult =>
    obtain ⟨calls, code, hreports, hdown, hcode, hrequest⟩ := hend
    refine ⟨calls, hreports, ?_⟩
    rw [hresult]
    exact ⟨hdown, code, hcode, hrequest⟩

end Watchdog.Daemon
