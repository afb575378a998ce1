import Mathlib
import ShaderBuild.Dependency.Store
import ShaderBuild.Proofs.Dependency.Store
import ShaderBuild.Proofs.Expansion.Following
/-!
Workers that ask for dependencies through one shared store. To look up and to store are single
steps; a search goes on file by file between them, while other workers act. However the steps are
interleaved, what is stored under a key is all that a search for it finds.
-/
namespace ShaderBuild

/-- What a worker asks for. -/
structure Request where
  /-- The dependencies are to be found afresh even if they are known. -/
  renew : Bool
  key : DependencyKey
  search : SearchPath
  source : Path
  headers : List Path

namespace Request

/-- Where the work on a request stands. -/
inductive Phase where
  | lookUp
  /-- The search has come to `rest`. -/
  | search (rest : Expanding PathSet)
  | store (set : PathSet)
  | answered (answer : Except ExpansionError PathSet)

variable (request : Request) (files : FileSystem)

def searching : Expanding PathSet :=
  discover files request.search request.source request.headers

/-- What the search comes to among files that stay as they are. -/
def discovered : Except ExpansionError PathSet :=
  ((request.searching files).run files).value

/-- The first phase: what is to be found afresh is not looked up. -/
def first : Phase :=
  if request.renew then .search (request.searching files) else .lookUp

/-- The next step. A search reads one file in a step, and looks at no dependencies. -/
def step : Phase → DependencyStore → Phase × DependencyStore
  | .lookUp, cache =>
    match cache.find? request.key with
    | some set => (.answered (.ok set), cache)
    | none => (.search (request.searching files), cache)
  | .search (.reading _ path next), cache => (.search (next (files.readText path)), cache)
  | .search (.ended _ (.ok set)), cache => (.store set, cache)
  | .search (.ended _ (.error problem)), cache => (.answered (.error problem), cache)
  | .store set, cache => (.answered (.ok set), cache.insert request.key set)
  | .answered answer, cache => (.answered answer, cache)

/-- A number of steps with nothing in between. -/
def steps : Nat → Phase × DependencyStore → Phase × DependencyStore
  | 0, state => state
  | count + 1, state => steps count (request.step files state.1 state.2)

/-- The request as it is answered when nothing comes in between. -/
def ask (cache : DependencyStore) : Expanding (PathSet × DependencyStore) :=
  if request.renew then
    cache.rediscover request.key files request.search request.source request.headers
  else cache.findOrDiscover request.key files request.search request.source request.headers

variable {request files} {cache : DependencyStore} {phase : Phase} {set : PathSet}

private theorem steps_search (rest : Expanding PathSet) :
    ∃ count, request.steps files count (.search rest, cache) =
      match (rest.run files).value with
      | .ok set => (.answered (.ok set), cache.insert request.key set)
      | .error problem => (.answered (.error problem), cache) := by
  induction rest with
  | ended log result =>
    cases result with
    | ok set => exact ⟨2, rfl⟩
    | error problem => exact ⟨1, rfl⟩
  | reading log path next ih =>
    obtain ⟨count, ends⟩ := ih (files.readText path)
    exact ⟨count + 1, ends⟩

private theorem value_rediscover :
    ((cache.rediscover request.key files request.search request.source request.headers).run
        files).value = (request.discovered files).map fun set =>
      (set, cache.insert request.key set) := by
  rw [DependencyStore.rediscover, Expanding.value_bind]
  change (request.discovered files).bind _ = _
  cases request.discovered files <;> rfl

/-- The steps of a request alone come to what asking for it comes to. -/
theorem ask_of_steps : ∃ count answer after,
    request.steps files count (request.first files, cache) = (.answered answer, after) ∧
    ((request.ask files cache).run files).value = answer.map fun set => (set, after) := by
  have afresh : ∃ count answer after,
      request.steps files count (.search (request.searching files), cache) =
        (.answered answer, after) ∧
      (request.discovered files).map (fun set => (set, cache.insert request.key set)) =
        answer.map fun set => (set, after) := by
    obtain ⟨count, ends⟩ := @steps_search request files cache (request.searching files)
    refine ⟨count, request.discovered files, ?_⟩
    change _ = match request.discovered files with | .ok _ => _ | .error _ => _ at ends
    cases found : request.discovered files with
    | ok set =>
      rw [found] at ends
      exact ⟨_, ends, rfl⟩
    | error problem =>
      rw [found] at ends
      exact ⟨_, ends, rfl⟩
  rw [ask, first]
  by_cases renew : request.renew = true
  · rw [if_pos renew, if_pos renew, value_rediscover]
    exact afresh
  · rw [if_neg renew, if_neg renew, DependencyStore.findOrDiscover]
    cases known : cache.find? request.key with
    | some set =>
      refine ⟨1, .ok set, cache, ?_, rfl⟩
      rw [steps, steps, step, known]
    | none =>
      obtain ⟨count, answer, after, ends, same⟩ := afresh
      refine ⟨count + 1, answer, after, ?_, ?_⟩
      · have missed : request.step files .lookUp cache =
            (.search (request.searching files), cache) := by rw [step, known]
        rw [steps, missed, ends]
      · dsimp only
        rw [Expanding.value_bind]
        change ((cache.rediscover _ _ _ _ _).run files).value = _
        rw [value_rediscover, same]

end Request

/-- A worker does its requests one after the other. -/
structure Worker where
  /-- The requests that it has done, with the answers. -/
  done : List (Request × Except ExpansionError PathSet)
  current : Option (Request × Request.Phase)
  waiting : List Request

/-- The next step of a worker. -/
def Worker.step (files : FileSystem) (worker : Worker) (cache : DependencyStore) :
    Worker × DependencyStore :=
  match worker.current with
  | some (request, .answered answer) =>
    ({ worker with done := worker.done ++ [(request, answer)], current := none }, cache)
  | some (request, phase) =>
    let next := request.step files phase cache
    ({ worker with current := some (request, next.1) }, next.2)
  | none =>
    match worker.waiting with
    | [] => (worker, cache)
    | request :: rest =>
      ({ worker with current := some (request, request.first files), waiting := rest }, cache)

/-- Workers and the dependencies that they share. -/
structure Pool (ι : Type) where
  workers : ι → Worker
  cache : DependencyStore

section

variable {ι : Type} {plans : ι → List Request} {files : FileSystem} {cache later : DependencyStore}
  {request : Request} {phase : Request.Phase} {set : PathSet} {worker : Worker}

/-- A worker is to do the request. -/
def Asked (plans : ι → List Request) (request : Request) : Prop :=
  ∃ worker, request ∈ plans worker

/-- Requests with one key search for one thing. -/
def Determined (plans : ι → List Request) : Prop :=
  ∀ first second, Asked plans first → Asked plans second → first.key.same second.key = true →
    first.search = second.search ∧ first.source = second.source ∧ first.headers = second.headers

/-- Each entry is under a key of the plans and is all that a search for it finds. -/
structure Complete (plans : ι → List Request) (files : FileSystem) (cache : DependencyStore) :
    Prop where
  distinct : cache.Distinct
  keys : ∀ entry ∈ cache.entries, ∃ request, Asked plans request ∧ request.key = entry.1
  sets : ∀ entry ∈ cache.entries, ∀ request, Asked plans request →
    request.key.same entry.1 = true → request.discovered files = .ok entry.2

/-- No entry is lost. -/
def Kept (cache later : DependencyStore) : Prop :=
  ∀ entry ∈ cache.entries, entry ∈ later.entries

theorem Kept.refl (cache : DependencyStore) : Kept cache cache :=
  fun _ member => member

theorem Determined.discovered {other : Request} (determined : Determined plans)
    (asked : Asked plans request) (askedToo : Asked plans other)
    (same : request.key.same other.key = true) :
    request.discovered files = other.discovered files := by
  obtain ⟨search, source, headers⟩ := determined _ _ asked askedToo same
  rw [Request.discovered, Request.discovered, Request.searching, Request.searching, search, source,
    headers]

namespace Complete

theorem found (complete : Complete plans files cache) (asked : Asked plans request)
    (known : cache.find? request.key = some set) : request.discovered files = .ok set := by
  obtain ⟨key, member, same⟩ := (DependencyStore.find?_eq_some complete.distinct).mp known
  exact complete.sets _ member request asked (DependencyKey.same_iff.mpr same.symm)

/-- What was known stays known. -/
theorem known (complete : Complete plans files cache) (completeToo : Complete plans files later)
    (kept : Kept cache later) {key : DependencyKey} (known : cache.find? key = some set) :
    later.find? key = some set := by
  obtain ⟨own, member, same⟩ := (DependencyStore.find?_eq_some complete.distinct).mp known
  exact (DependencyStore.find?_eq_some completeToo.distinct).mpr ⟨own, kept _ member, same⟩

/-- To store what a search came to adds an entry, or changes nothing. -/
theorem insert (complete : Complete plans files cache) (determined : Determined plans)
    (asked : Asked plans request) (found : request.discovered files = .ok set) :
    Complete plans files (cache.insert request.key set) ∧
      Kept cache (cache.insert request.key set) := by
  cases known : cache.find? request.key with
  | some old =>
    obtain rfl := Except.ok.inj ((complete.found asked known).symm.trans found)
    rw [DependencyStore.insert_of_find? known]
    exact ⟨complete, .refl cache⟩
  | none =>
    have entries := DependencyStore.insert_fresh (DependencyStore.find?_eq_none.mp known) set
    refine ⟨⟨complete.distinct.insert _ _, fun entry member => ?_, fun entry member => ?_⟩,
      fun entry member => ?_⟩
    · rw [entries, List.mem_append, List.mem_singleton] at member
      rcases member with old | rfl
      · exact complete.keys entry old
      · exact ⟨request, asked, rfl⟩
    · rw [entries, List.mem_append, List.mem_singleton] at member
      rcases member with old | rfl
      · exact complete.sets entry old
      · intro other askedToo same
        rw [determined.discovered askedToo asked same, found]
    · rw [entries]
      exact List.mem_append_left _ member

end Complete

/-- What holds of a request at a phase. -/
def Request.Faithful (request : Request) (files : FileSystem) (cache : DependencyStore) :
    Request.Phase → Prop
  | .lookUp => True
  | .search rest => (rest.run files).value = request.discovered files
  | .store set => request.discovered files = .ok set
  | .answered answer => request.discovered files = answer ∧
    ∀ set, answer = .ok set → cache.find? request.key = some set

theorem Request.Faithful.grown (faithful : request.Faithful files cache phase)
    (known : ∀ set, cache.find? request.key = some set → later.find? request.key = some set) :
    request.Faithful files later phase := by
  cases phase with
  | answered answer => exact ⟨faithful.1, fun set same => known set (faithful.2 set same)⟩
  | _ => exact faithful

/-- A step of a request keeps all entries; one that is to fail keeps the store as it is. -/
theorem Request.step_faithful (determined : Determined plans) (asked : Asked plans request)
    (complete : Complete plans files cache) (faithful : request.Faithful files cache phase) :
    let next := request.step files phase cache
    Complete plans files next.2 ∧ Kept cache next.2 ∧ request.Faithful files next.2 next.1 ∧
      ∀ problem, request.discovered files = .error problem → next.2 = cache := by
  have same := Kept.refl cache
  cases phase with
  | lookUp =>
    rw [step]
    cases known : cache.find? request.key with
    | some set =>
      refine ⟨complete, same, ⟨complete.found asked known, ?_⟩, fun _ _ => rfl⟩
      intro other equal
      rw [known, Except.ok.inj equal]
    | none => exact ⟨complete, same, rfl, fun _ _ => rfl⟩
  | search rest =>
    cases rest with
    | reading log path next => exact ⟨complete, same, faithful, fun _ _ => rfl⟩
    | ended log result =>
      cases result with
      | ok set => exact ⟨complete, same, faithful.symm, fun _ _ => rfl⟩
      | error problem =>
        exact ⟨complete, same, ⟨faithful.symm, fun _ equal => nomatch equal⟩, fun _ _ => rfl⟩
  | store set =>
    obtain ⟨stored, kept⟩ := complete.insert determined asked faithful
    refine ⟨stored, kept, ⟨faithful, fun other equal => ?_⟩, fun problem failed => ?_⟩
    · rw [step, DependencyStore.find?_insert_self, Except.ok.inj equal]
    · exact nomatch failed.symm.trans faithful
  | answered answer => exact ⟨complete, same, faithful, fun _ _ => rfl⟩

/-- What holds of a worker. -/
structure Worker.Faithful (plans : ι → List Request) (files : FileSystem)
    (cache : DependencyStore) (worker : Worker) : Prop where
  done : ∀ entry ∈ worker.done, Asked plans entry.1 ∧
    entry.1.Faithful files cache (.answered entry.2)
  current : ∀ entry, worker.current = some entry → Asked plans entry.1 ∧
    entry.1.Faithful files cache entry.2
  waiting : ∀ request ∈ worker.waiting, Asked plans request

theorem Worker.Faithful.grown (faithful : worker.Faithful plans files cache)
    (known : ∀ key set, cache.find? key = some set → later.find? key = some set) :
    worker.Faithful plans files later where
  done entry member := (faithful.done entry member).imp_right fun own => own.grown (known _)
  current entry same := (faithful.current entry same).imp_right fun own => own.grown (known _)
  waiting := faithful.waiting

private theorem Worker.step_running {done : List (Request × Except ExpansionError PathSet)}
    {waiting : List Request} (running : ∀ answer, phase ≠ .answered answer) :
    Worker.step files ⟨done, some (request, phase), waiting⟩ cache =
      (⟨done, some (request, (request.step files phase cache).1), waiting⟩,
        (request.step files phase cache).2) := by
  cases phase with
  | answered answer => exact absurd rfl (running answer)
  | _ => rfl

/-- A step of a worker keeps all entries; one for a request that is to fail keeps the store as it
is. -/
theorem Worker.step_faithful (determined : Determined plans) (complete : Complete plans files cache)
    (faithful : worker.Faithful plans files cache) :
    let next := worker.step files cache
    Complete plans files next.2 ∧ Kept cache next.2 ∧ next.1.Faithful plans files next.2 ∧
      ∀ request phase problem, worker.current = some (request, phase) →
        request.discovered files = .error problem → next.2 = cache := by
  obtain ⟨done, current, waiting⟩ := worker
  cases current with
  | none =>
    cases waiting with
    | nil => exact ⟨complete, .refl cache, faithful, fun _ _ _ none => nomatch none⟩
    | cons request rest =>
      refine ⟨complete, .refl cache, ⟨faithful.done, ?_, fun other member => ?_⟩,
        fun _ _ _ none => nomatch none⟩
      · intro entry same
        obtain rfl := Option.some.inj same
        refine ⟨faithful.waiting request List.mem_cons_self, ?_⟩
        unfold Request.first
        split
        · rfl
        · trivial
      · exact faithful.waiting other (List.mem_cons_of_mem _ member)
  | some entry =>
    obtain ⟨request, phase⟩ := entry
    obtain ⟨asked, own⟩ := faithful.current _ rfl
    -- An answered request is put away; any other takes a step of its own.
    by_cases answered : ∃ answer, phase = .answered answer
    · obtain ⟨answer, rfl⟩ := answered
      refine ⟨complete, .refl cache, ⟨fun entry member => ?_, fun _ none => (nomatch none),
        faithful.waiting⟩, fun _ _ _ _ _ => rfl⟩
      rcases List.mem_append.mp member with old | new
      · exact faithful.done entry old
      · rw [List.mem_singleton.mp new]
        exact ⟨asked, own⟩
    · obtain ⟨completeToo, kept, ownToo, failing⟩ :=
        request.step_faithful determined asked complete own
      rw [step_running fun answer same => answered ⟨answer, same⟩]
      have grown := faithful.grown fun key set => complete.known completeToo kept
      refine ⟨completeToo, kept, ⟨grown.done, ?_, grown.waiting⟩, ?_⟩
      · intro entry same
        obtain rfl := Option.some.inj same
        exact ⟨asked, ownToo⟩
      · intro other phase problem same failed
        obtain ⟨rfl, _⟩ := Prod.mk.inj (Option.some.inj same)
        exact failing problem failed

end

namespace Pool

variable {ι : Type} [DecidableEq ι] {files : FileSystem} {plans : ι → List Request} {pool : Pool ι}

/-- No worker has begun, and nothing is known. -/
def start (plans : ι → List Request) : Pool ι :=
  ⟨fun worker => ⟨[], none, plans worker⟩, .empty⟩

/-- One worker takes a step. -/
def step (files : FileSystem) (pool : Pool ι) (worker : ι) : Pool ι :=
  let next := (pool.workers worker).step files pool.cache
  ⟨Function.update pool.workers worker next.1, next.2⟩

/-- Workers take steps in the order of a list. -/
def run (files : FileSystem) (pool : Pool ι) (schedule : List ι) : Pool ι :=
  schedule.foldl (step files) pool

/-- What holds of a pool at all times. -/
structure Faithful (plans : ι → List Request) (files : FileSystem) (pool : Pool ι) : Prop where
  complete : Complete plans files pool.cache
  workers : ∀ worker, (pool.workers worker).Faithful plans files pool.cache

omit [DecidableEq ι] in
theorem faithful_start (plans : ι → List Request) (files : FileSystem) :
    (start plans).Faithful plans files where
  complete :=
    ⟨DependencyStore.distinct_empty, fun _ none => (nomatch none), fun _ none => (nomatch none)⟩
  workers worker :=
    ⟨fun _ none => (nomatch none), fun _ none => (nomatch none), fun _ member => ⟨worker, member⟩⟩

theorem Faithful.step (determined : Determined plans) (faithful : pool.Faithful plans files)
    (worker : ι) :
    (pool.step files worker).Faithful plans files ∧
      Kept pool.cache (pool.step files worker).cache := by
  obtain ⟨complete, kept, own, _⟩ :=
    (pool.workers worker).step_faithful determined faithful.complete (faithful.workers worker)
  refine ⟨⟨complete, fun other => ?_⟩, kept⟩
  change (Function.update pool.workers worker _ other).Faithful plans files _
  by_cases same : other = worker
  · subst same
    rw [Function.update_self]
    exact own
  · rw [Function.update_of_ne same]
    exact (faithful.workers other).grown fun key set => faithful.complete.known complete kept

theorem Faithful.run (determined : Determined plans) (faithful : pool.Faithful plans files)
    (schedule : List ι) :
    (pool.run files schedule).Faithful plans files ∧
      Kept pool.cache (pool.run files schedule).cache := by
  induction schedule generalizing pool with
  | nil => exact ⟨faithful, .refl _⟩
  | cons worker schedule ih =>
    obtain ⟨next, kept⟩ := faithful.step determined worker
    obtain ⟨last, keptToo⟩ := ih next
    exact ⟨last, fun entry member => keptToo entry (kept entry member)⟩

/-- Whatever workers ask for and however their steps are interleaved: each entry is all that a
search for its key finds, no entry is lost or changed, each answer is what a search comes to, and the
store stays as it is through all steps of a request whose search fails. -/
theorem discovered_of_run (determined : Determined plans) (schedule more : List ι) :
    let pool := (start plans).run files schedule
    let later := pool.run files more
    (∀ entry ∈ pool.cache.entries,
      (∃ request, Asked plans request ∧ request.key = entry.1) ∧
      (∀ request, Asked plans request → request.key.same entry.1 = true →
        request.discovered files = .ok entry.2) ∧
      entry ∈ later.cache.entries) ∧
    (∀ worker, ∀ entry ∈ (pool.workers worker).done,
      entry.1.discovered files = entry.2 ∧
      ∀ set, entry.2 = .ok set → pool.cache.find? entry.1.key = some set) ∧
    ∀ worker request phase problem, (pool.workers worker).current = some (request, phase) →
      request.discovered files = .error problem → (pool.step files worker).cache = pool.cache := by
  intro pool later
  obtain ⟨faithful, _⟩ := (faithful_start plans files).run determined schedule
  obtain ⟨_, kept⟩ := faithful.run determined more
  refine ⟨fun entry member => ⟨faithful.complete.keys entry member,
    faithful.complete.sets entry member, kept entry member⟩, fun worker entry member => ?_,
    fun worker => ?_⟩
  · exact ((faithful.workers worker).done entry member).2
  · exact (Worker.step_faithful determined faithful.complete (faithful.workers worker)).2.2.2

/-- A directory with one template. -/
def raceFiles : FileSystem where
  entries := [(["a.slv".toList], .file ⟨.text [], 0, false, false⟩)]
  workingLocation := []
  workingDirectory := Path.of "/"

def raceRequest : Request where
  renew := false
  key := ⟨Path.of "a.slv", "410".toList, .mono⟩
  search := ⟨[]⟩
  source := Path.of "a.slv"
  headers := []

/-- Two workers that ask for the same, and then for it afresh. -/
def racePlans (_ : Bool) : List Request :=
  [raceRequest, { raceRequest with renew := true }]

private theorem determined_race : Determined racePlans := by
  have one : ∀ request, Asked racePlans request →
      request.search = ⟨[]⟩ ∧ request.source = Path.of "a.slv" ∧ request.headers = [] := by
    rintro request ⟨worker, member⟩
    rcases List.mem_cons.mp member with rfl | member
    · exact ⟨rfl, rfl, rfl⟩
    · rw [List.mem_singleton.mp member]
      exact ⟨rfl, rfl, rfl⟩
  intro first second asked askedToo _
  obtain ⟨search, source, headers⟩ := one first asked
  obtain ⟨searchToo, sourceToo, headersToo⟩ := one second askedToo
  exact ⟨search.trans searchToo.symm, source.trans sourceToo.symm, headers.trans headersToo.symm⟩

/-- Both workers miss and search; the one entry that they leave is what a search finds. -/
theorem discovered_of_run_race :
    let pool := (start racePlans).run raceFiles [false, true, false, true, false, true, false, true,
      false, true]
    pool.cache.entries = [(raceRequest.key, ⟨[Path.of "/a.slv"]⟩)] ∧
      raceRequest.discovered raceFiles = .ok ⟨[Path.of "/a.slv"]⟩ := by
  intro pool
  have entries : pool.cache.entries = [(raceRequest.key, ⟨[Path.of "/a.slv"]⟩)] := by
    dsimp only [pool]
    cbv
  refine ⟨entries, ?_⟩
  have found := (discovered_of_run determined_race [false, true, false, true, false, true, false,
    true, false, true] [true]).1 _ (entries ▸ List.mem_singleton_self _)
  exact found.2.1 raceRequest ⟨true, List.mem_cons_self⟩ (by decide)

end Pool

end ShaderBuild
