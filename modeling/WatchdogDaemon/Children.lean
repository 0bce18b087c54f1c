import Mathlib.Data.List.Nodup
import WatchdogDaemon.Repair

/- The daemon's children as the kernel keeps them.

   A child is live until `waitpid` has reported it: it runs, or it has ended and
   keeps its pid. `Kernel` is the list of live children, and what the kernel promises
   about pids is a field of it: no two live children share one, so `fork` never hands
   out the pid of a child that has not been reaped, and `waitpid` reports each child
   once, since a reported child is no longer live. Everything else is up to the
   environment: when a child ends and how, which ended child a `waitpid(-1)` reports,
   and which free pid a `fork` hands out.

   `Child.id`, the number of the `fork` that made the child, and `Child.test`, the
   name it was forked for, are what a proof needs to tell children apart; no system
   call shows them.

   What is proved: `repair_evolves` — whatever happens during a `repair()`, no child
   of `check_bin` is reaped, killed or added by it.

   Correspondence (C ↔ Lean):
     `fork`                                 ↔ `Kernel.fork`
     `waitpid (-1, .., WNOHANG)`            ↔ `Kernel.report`
     `waitpid (child_pid, ..)`              ↔ `Kernel.waitpid`, `Kernel.waitEnded`
     `kill (pid, SIGKILL)`                  ↔ `Kernel.sigkill`
     a child ends                           ↔ `Kernel.terminate` -/
namespace Watchdog

/-- A child that has not been reaped. `test` is the name `check_bin` forked it for,
`none` for a child of `repair`; `killed` says that it has been sent SIGKILL. -/
structure Child where
  id : Nat
  pid : Int
  test : Option CString
  ended : Option Term
  killed : Bool
  deriving DecidableEq

/-- The child ends, unless it has. -/
def Child.finish (t : Term) (c : Child) : Child :=
  { c with ended := c.ended <|> some t }

/-- Two sights of one child, before and after it may have ended. -/
structure Child.Same (c d : Child) : Prop where
  id : d.id = c.id
  pid : d.pid = c.pid
  test : d.test = c.test
  killed : d.killed = c.killed

theorem Child.Same.refl (c : Child) : c.Same c := ⟨rfl, rfl, rfl, rfl⟩

theorem Child.Same.trans {c d e : Child} (h₁ : c.Same d) (h₂ : d.Same e) : c.Same e :=
  ⟨h₂.id.trans h₁.id, h₂.pid.trans h₁.pid, h₂.test.trans h₁.test, h₂.killed.trans h₁.killed⟩

structure Kernel where
  live : List Child
  forks : Nat
  pidsNodup : (live.map Child.pid).Nodup
  idsNodup : (live.map Child.id).Nodup
  idsLt : ∀ c ∈ live, c.id < forks

namespace Kernel

/-- No child yet. -/
def init : Kernel := ⟨[], 0, by simp, by simp, by simp⟩

theorem eq_of_pid {k : Kernel} {c d : Child} (hc : c ∈ k.live) (hd : d ∈ k.live)
    (h : c.pid = d.pid) : c = d :=
  List.inj_on_of_nodup_map k.pidsNodup hc hd h

theorem eq_of_id {k : Kernel} {c d : Child} (hc : c ∈ k.live) (hd : d ∈ k.live)
    (h : c.id = d.id) : c = d :=
  List.inj_on_of_nodup_map k.idsNodup hc hd h

/-! ## What happens to live children -/

/-- Something happens to the children that changes neither pid nor number. -/
def update (k : Kernel) (f : Child → Child) (hpid : ∀ c, (f c).pid = c.pid)
    (hid : ∀ c, (f c).id = c.id) : Kernel where
  live := k.live.map f
  forks := k.forks
  pidsNodup := by
    have : k.live.map (Child.pid ∘ f) = k.live.map Child.pid :=
      List.map_congr_left fun c _ => hpid c
    rw [List.map_map, this]
    exact k.pidsNodup
  idsNodup := by
    have : k.live.map (Child.id ∘ f) = k.live.map Child.id :=
      List.map_congr_left fun c _ => hid c
    rw [List.map_map, this]
    exact k.idsNodup
  idsLt := by
    intro c hc
    obtain ⟨d, hd, rfl⟩ := List.mem_map.mp hc
    rw [hid]
    exact k.idsLt d hd

/-- The child numbered `id` ends. -/
def terminate (k : Kernel) (id : Nat) (t : Term) : Kernel :=
  k.update (fun c => if c.id = id then c.finish t else c)
    (fun c => by split <;> rfl) (fun c => by split <;> rfl)

/-- Several children end. -/
def terminateAll (k : Kernel) (ends : List (Nat × Term)) : Kernel :=
  ends.foldl (fun k e => k.terminate e.1 e.2) k

def sigkill (k : Kernel) (pid : Int) : Kernel :=
  k.update (fun c => if c.pid = pid then { c with killed := true } else c)
    (fun c => by split <;> rfl) (fun c => by split <;> rfl)

/-- The child numbered `id` is gone. -/
def reap (k : Kernel) (id : Nat) : Kernel where
  live := k.live.filter (·.id ≠ id)
  forks := k.forks
  pidsNodup := (List.filter_sublist.map _).nodup k.pidsNodup
  idsNodup := (List.filter_sublist.map _).nodup k.idsNodup
  idsLt := fun c hc => k.idsLt c (List.mem_of_mem_filter hc)

theorem mem_reap {k : Kernel} {id : Nat} {c : Child} :
    c ∈ (k.reap id).live ↔ c ∈ k.live ∧ c.id ≠ id := by
  simp [reap]

/-- The child numbered `id` and how it ended, if it has. -/
def report (k : Kernel) (id : Nat) : Option (Child × Term) := do
  let c ← k.live.find? (·.id = id)
  let t ← c.ended
  return (c, t)

theorem report_some {k : Kernel} {id : Nat} {c : Child} {t : Term} (h : k.report id = some (c, t)) :
    c ∈ k.live ∧ c.id = id ∧ c.ended = some t := by
  cases hf : k.live.find? (·.id = id) with
  | none => simp [report, hf] at h
  | some d =>
    cases he : d.ended with
    | none => simp [report, hf, he] at h
    | some u =>
      have hid := List.find?_some hf
      simp only [report, hf, he, Option.bind_eq_bind, Option.bind_some, Option.pure_def,
        Option.some.injEq, Prod.mk.injEq] at h
      obtain ⟨rfl, rfl⟩ := h
      exact ⟨List.mem_of_find?_eq_some hf, by simpa using hid, he⟩

/-- A new child, unless the pid is taken: the kernel hands out free pids only. -/
def fork (k : Kernel) (pid : Int) (test : Option CString) : Option Kernel :=
  if h : 0 < pid ∧ pid ∉ k.live.map Child.pid then
    some {
      live := ⟨k.forks, pid, test, none, false⟩ :: k.live
      forks := k.forks + 1
      pidsNodup := by
        rw [List.map_cons]
        exact List.nodup_cons.mpr ⟨h.2, k.pidsNodup⟩
      idsNodup := by
        rw [List.map_cons]
        refine List.nodup_cons.mpr ⟨?_, k.idsNodup⟩
        intro hmem
        obtain ⟨c, hc, hid⟩ := List.mem_map.mp hmem
        have := k.idsLt c hc
        simp only at hid
        omega
      idsLt := by
        intro c hc
        rcases List.mem_cons.mp hc with rfl | hc
        · exact Nat.lt_succ_self k.forks
        · exact Nat.lt_succ_of_lt (k.idsLt c hc) }
  else none

theorem fork_some {k k' : Kernel} {pid : Int} {test : Option CString}
    (h : k.fork pid test = some k') :
    0 < pid ∧ pid ∉ k.live.map Child.pid ∧
      k'.live = ⟨k.forks, pid, test, none, false⟩ :: k.live ∧ k'.forks = k.forks + 1 := by
  unfold fork at h
  split at h
  · next hp =>
    cases h
    exact ⟨hp.1, hp.2, rfl, rfl⟩
  · cases h

/-! ## What a repair leaves alone -/

/-- From `k` to `k'` children ended, and children of `repair` came and went: every
child of `check_bin` is still there, and there is no new one. -/
structure Evolves (k k' : Kernel) : Prop where
  forks : k.forks ≤ k'.forks
  keeps : ∀ c ∈ k.live, c.test.isSome → ∃ d ∈ k'.live, c.Same d
  noNew : ∀ d ∈ k'.live, d.test.isSome → ∃ c ∈ k.live, c.Same d

theorem Evolves.refl (k : Kernel) : k.Evolves k :=
  ⟨Nat.le_refl _, fun c hc _ => ⟨c, hc, .refl c⟩, fun d hd _ => ⟨d, hd, .refl d⟩⟩

theorem Evolves.trans {k l m : Kernel} (h₁ : k.Evolves l) (h₂ : l.Evolves m) : k.Evolves m := by
  refine ⟨Nat.le_trans h₁.forks h₂.forks, ?_, ?_⟩
  · intro c hc ht
    obtain ⟨d, hd, hcd⟩ := h₁.keeps c hc ht
    obtain ⟨e, he, hde⟩ := h₂.keeps d hd (by rw [hcd.test]; exact ht)
    exact ⟨e, he, hcd.trans hde⟩
  · intro e he ht
    obtain ⟨d, hd, hde⟩ := h₂.noNew e he ht
    obtain ⟨c, hc, hcd⟩ := h₁.noNew d hd (by rw [← hde.test]; exact ht)
    exact ⟨c, hc, hcd.trans hde⟩

theorem terminate_same (id : Nat) (t : Term) (c : Child) :
    c.Same (if c.id = id then c.finish t else c) := by
  split
  · exact ⟨rfl, rfl, rfl, rfl⟩
  · exact .refl c

theorem terminate_evolves (k : Kernel) (id : Nat) (t : Term) : k.Evolves (k.terminate id t) := by
  refine ⟨Nat.le_refl _, ?_, ?_⟩
  · intro c hc _
    exact ⟨_, List.mem_map_of_mem hc, terminate_same id t c⟩
  · intro d hd _
    obtain ⟨c, hc, rfl⟩ := List.mem_map.mp hd
    exact ⟨c, hc, terminate_same id t c⟩

theorem terminateAll_evolves (ends : List (Nat × Term)) (k : Kernel) :
    k.Evolves (k.terminateAll ends) := by
  induction ends generalizing k with
  | nil => exact .refl k
  | cons e ends ih => exact (terminate_evolves k e.1 e.2).trans (ih _)

/-- Whatever has this pid, it is no child of `check_bin`. -/
def OwnedByRepair (k : Kernel) (pid : Int) : Prop := ∀ c ∈ k.live, c.pid = pid → c.test = none

theorem Evolves.owned {k k' : Kernel} {pid : Int} (h : k.Evolves k') (ho : k.OwnedByRepair pid) :
    k'.OwnedByRepair pid := by
  intro d hd hpid
  by_contra hne
  obtain ⟨c, hc, hcd⟩ := h.noNew d hd (Option.isSome_iff_ne_none.mpr hne)
  exact hne (hcd.test.trans (ho c hc (hcd.pid.symm.trans hpid)))

theorem reap_evolves {k : Kernel} {c : Child} (hc : c ∈ k.live) (ht : c.test = none) :
    k.Evolves (k.reap c.id) := by
  refine ⟨Nat.le_refl _, ?_, ?_⟩
  · intro d hd hd'
    refine ⟨d, mem_reap.mpr ⟨hd, ?_⟩, .refl d⟩
    intro hid
    rw [eq_of_id hd hc hid, ht] at hd'
    cases hd'
  · intro d hd _
    exact ⟨d, (mem_reap.mp hd).1, .refl d⟩

theorem fork_evolves {k k' : Kernel} {pid : Int} (h : k.fork pid none = some k') :
    k.Evolves k' ∧ k'.OwnedByRepair pid := by
  obtain ⟨-, hpid, hlive, hforks⟩ := fork_some h
  refine ⟨⟨by omega, ?_, ?_⟩, ?_⟩
  · intro c hc _
    exact ⟨c, by rw [hlive]; exact List.mem_cons_of_mem _ hc, .refl c⟩
  · intro d hd ht
    rw [hlive] at hd
    rcases List.mem_cons.mp hd with rfl | hd
    · cases ht
    · exact ⟨d, hd, .refl d⟩
  · intro d hd hd'
    rw [hlive] at hd
    rcases List.mem_cons.mp hd with rfl | hd
    · rfl
    · exact absurd (hd' ▸ List.mem_map_of_mem hd) hpid

/-! ## `repair()` on the kernel -/

/-- `waitpid (pid, .., WNOHANG)`. -/
def waitpid (k : Kernel) (pid : Int) : Wait × Kernel :=
  match k.live.find? (·.pid = pid) with
  | none => (.failed ⟨echild, by decide⟩, k)
  | some c =>
    match c.ended with
    | none => (.running, k)
    | some t => (.reaped t.status, k.reap c.id)

/-- `waitpid (pid, .., 0)`: it comes back when the child has ended, and `lastly` says
how if it had not. -/
def waitEnded (k : Kernel) (pid : Int) (lastly : Term) : Wait × Kernel :=
  match k.live.find? (·.pid = pid) with
  | none => (.failed ⟨echild, by decide⟩, k)
  | some c => (.reaped (c.ended.getD lastly).status, k.reap c.id)

theorem waitpid_evolves {k : Kernel} {pid : Int} (ho : k.OwnedByRepair pid) :
    k.Evolves (k.waitpid pid).2 := by
  unfold waitpid
  split
  · exact .refl k
  · next c hc =>
    split
    · exact .refl k
    · have hpid : c.pid = pid := by simpa using List.find?_some hc
      exact reap_evolves (List.mem_of_find?_eq_some hc) (ho c (List.mem_of_find?_eq_some hc) hpid)

theorem waitEnded_evolves {k : Kernel} {pid : Int} {lastly : Term} (ho : k.OwnedByRepair pid) :
    k.Evolves (k.waitEnded pid lastly).2 := by
  unfold waitEnded
  split
  · exact .refl k
  · next c hc =>
    have hpid : c.pid = pid := by simpa using List.find?_some hc
    exact reap_evolves (List.mem_of_find?_eq_some hc) (ho c (List.mem_of_find?_eq_some hc) hpid)

end Kernel

/-- What the environment does during a `repair()`: the pid `fork` hands out, the
children that end before the `n`-th `waitpid` and whether that call fails, and how the
child ends that a blocking `waitpid` waits for. -/
structure RepairEnv where
  fork : Option Int
  ends : Nat → List (Nat × Term)
  fails : Nat → Option Errno
  lastly : Term

/-- The system calls of `repair` against the kernel. -/
def RepairEnv.sys (env : RepairEnv) : RepairSys (StateM Kernel) where
  fork := fun k =>
    match env.fork.bind fun pid => (k.fork pid none).map fun k => (pid, k) with
    | none => (.error ⟨eagain, by decide⟩, k)
    | some (pid, k) => (.ok pid, k)
  waitpid := fun pid block n k =>
    let k := k.terminateAll (env.ends n)
    match env.fails n with
    | some err => (.failed err, k)
    | none => if block then k.waitEnded pid env.lastly else k.waitpid pid

namespace RepairEnv
open Kernel

theorem waitpid_sys_evolves (env : RepairEnv) {k : Kernel} {pid : Int} (ho : k.OwnedByRepair pid)
    (block : Bool) (n : Nat) : k.Evolves (env.sys.waitpid pid block n k).2 := by
  have hend := terminateAll_evolves (env.ends n) k
  have ho' := hend.owned ho
  simp only [sys]
  split
  · exact hend
  · split
    · exact hend.trans (waitEnded_evolves ho')
    · exact hend.trans (waitpid_evolves ho')

theorem pollRepair_evolves (env : RepairEnv) {pid : Int} : ∀ (left n : Nat) (k : Kernel),
    k.OwnedByRepair pid → k.Evolves (pollRepair (env.sys.waitpid pid false) left n k).2
  | 0, _, k, _ => .refl k
  | left + 1, n, k, ho => by
    have hstep := env.waitpid_sys_evolves ho false n
    simp only [pollRepair, bind, StateT.bind]
    cases hw : env.sys.waitpid pid false n k with
    | mk answer k' =>
      rw [hw] at hstep
      cases answer with
      | running => exact hstep.trans (pollRepair_evolves env left (n + 1) k' (hstep.owned ho))
      | reaped status => exact hstep
      | failed err => exact hstep

/-- The call of `fork` in `repair()`: nothing happens, or there is a new child. -/
theorem fork_sys_cases (env : RepairEnv) (k : Kernel) :
    (∃ err, env.sys.fork k = (.error err, k)) ∨
    ∃ pid k', k.fork pid none = some k' ∧ env.sys.fork k = (.ok pid, k') := by
  simp only [sys]
  cases he : env.fork with
  | none => exact Or.inl ⟨_, rfl⟩
  | some pid =>
    cases hk : k.fork pid none with
    | none => exact Or.inl ⟨_, by simp only [Option.bind_some, hk, Option.map_none]; rfl⟩
    | some k' => exact Or.inr ⟨pid, k', hk, by simp only [Option.bind_some, hk, Option.map_some]⟩

/-- A `repair()` leaves the children of `check_bin` alone, whatever happens meanwhile. -/
theorem repair_evolves (env : RepairEnv) (cfg : Config) (rbinary : Option CString) (result : Int)
    (k : Kernel) : k.Evolves (repair env.sys cfg rbinary result k).2 := by
  unfold repair
  cases rbinary with
  | none => exact .refl k
  | some path =>
    simp only [Option.isNone_some, Bool.false_eq_true, if_false, bind, StateT.bind]
    obtain ⟨err, hf⟩ | ⟨pid, k', hfork, hf⟩ := env.fork_sys_cases k
    · rw [hf]
      exact .refl k
    · rw [hf]
      obtain ⟨hev, ho⟩ := fork_evolves hfork
      by_cases ht : 0 < cfg.repairTimeout
      · simp only [ht, if_true]
        exact hev.trans (env.pollRepair_evolves _ 0 k' ho)
      · simp only [ht, if_false]
        exact hev.trans (env.waitpid_sys_evolves ho true 0)

end RepairEnv

end Watchdog
