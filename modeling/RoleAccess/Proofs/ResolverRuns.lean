import Mathlib.Data.List.Dedup
import Mathlib.Data.List.Induction
import RoleAccess.Resolver

/-!
# Runs of resolvers

A resolver changes with every request only in what it keeps. It keeps what compiling the role list
afresh gives, whatever it has been asked for before, so all its answers are those of a fresh
compilation. What it keeps can be read off the transcript of its answers: one entry for every role
list that permissions have been handed out for since the last clearing.
-/

namespace RoleAccess

/-- What a resolver is asked for. -/
inductive Request where
  | permissions (roles : List String)
  | bindings (roles : List String) (identity : Identity)
  | clear

/-- What a resolver answers. -/
inductive Answer where
  | permissions (result : Except Fault Permissions)
  | bindings (result : Except Fault Bindings)
  | cleared

/-- The answer to a request from scratch: permissions are compiled under the prefix of the settings
and come with their default for choosing primary keys, or else that of the schema, or else none. -/
def Schema.answer (s : Schema) (settings : Settings) : Request → Answer
  | .permissions roles => .permissions do
    return {
      model := s.model
      grants := ← s.compile roles settings.variablePrefix
      defaultCustomPrimary := (settings.defaultCustomPrimary.or s.acl.customPrimary).getD false }
  | .bindings roles identity => .bindings (s.bind roles identity settings.variablePrefix)
  | .clear => .cleared

namespace Resolver

/-- The resolver after a request. -/
def after (r : Resolver) : Request → Resolver
  | .permissions roles => (r.permissions roles).2
  | .bindings _ _ => r
  | .clear => r.clear

/-- The resolver after a list of requests. -/
def run (r : Resolver) (requests : List Request) : Resolver := requests.foldl after r

/-- What is kept for a role list is what compiling the list afresh gives. -/
def Faithful (r : Resolver) : Prop := ∀ roles p, (roles, p) ∈ r.cache → r.compile roles = .ok p

variable {r : Resolver} {roles : List String} {p : Permissions}

/-- A request leaves the resolver as it is, clears it, or makes it keep what it has compiled. -/
lemma after_cases (r : Resolver) (q : Request) :
    r.after q = r ∨ (q = .clear ∧ r.after q = r.clear) ∨
      ∃ roles p, q = .permissions roles ∧ r.cached? roles = none ∧ r.compile roles = .ok p ∧
        r.after q = r.keep roles p := by
  cases q with
  | bindings roles i => exact .inl rfl
  | clear => exact .inr (.inl ⟨rfl, rfl⟩)
  | permissions roles =>
    simp only [after, permissions]
    cases hcached : r.cached? roles with
    | some p => exact .inl rfl
    | none =>
      cases hcompile : r.compile roles with
      | error fault => exact .inl rfl
      | ok p => exact .inr (.inr ⟨roles, p, rfl, hcached, hcompile, rfl⟩)

lemma mem_cache_keep {e : List String × Permissions} (h : e ∈ (r.keep roles p).cache) :
    e = (roles, p) ∨ e ∈ r.cache := by
  unfold keep at h
  split at h
  · exact List.mem_cons.1 h
  · exact .inr h

/-- A request changes neither the schema nor the settings. -/
lemma after_fixed (r : Resolver) (q : Request) :
    (r.after q).schema = r.schema ∧ (r.after q).settings = r.settings := by
  rcases r.after_cases q with h | ⟨_, h⟩ | ⟨roles, p, _, _, _, h⟩ <;> rw [h]
  · exact ⟨rfl, rfl⟩
  · exact ⟨rfl, rfl⟩
  · unfold keep
    split <;> exact ⟨rfl, rfl⟩

lemma compile_congr {r r' : Resolver} (h : r.schema = r'.schema ∧ r.settings = r'.settings)
    (roles : List String) : r.compile roles = r'.compile roles := by
  unfold compile defaultCustomPrimary
  rw [h.1, h.2]

lemma Faithful.after (hr : r.Faithful) (q : Request) : (r.after q).Faithful := by
  intro roles p hp
  rw [compile_congr (r.after_fixed q)]
  rcases r.after_cases q with h | ⟨_, h⟩ | ⟨kept, own, _, _, hcompile, h⟩ <;> rw [h] at hp
  · exact hr roles p hp
  · cases hp
  · rcases mem_cache_keep hp with heq | hp
    · cases heq
      exact hcompile
    · exact hr roles p hp

lemma faithful_new (schema : Schema) (settings : Settings) : (new schema settings).Faithful :=
  fun _ _ h => (nomatch h)

lemma run_fixed (r : Resolver) (requests : List Request) :
    (r.run requests).schema = r.schema ∧ (r.run requests).settings = r.settings := by
  induction requests generalizing r with
  | nil => exact ⟨rfl, rfl⟩
  | cons q requests ih =>
    obtain ⟨hschema, hsettings⟩ := r.after_fixed q
    exact ⟨(ih (r.after q)).1.trans hschema, (ih (r.after q)).2.trans hsettings⟩

lemma Faithful.run (hr : r.Faithful) (requests : List Request) : (r.run requests).Faithful := by
  induction requests generalizing r with
  | nil => exact hr
  | cons q requests ih => exact ih (hr.after q)

lemma mem_cache_of_cached? (h : r.cached? roles = some p) :
    r.settings.cacheRoleSets = true ∧ (roles, p) ∈ r.cache := by
  unfold cached? at h
  split at h
  · rename_i hkeeps
    obtain ⟨before, rest, hcache, _⟩ := List.lookup_eq_some_iff.1 h
    rw [hcache]
    exact ⟨hkeeps, List.mem_append_right before List.mem_cons_self⟩
  · cases h

/-- A resolver that keeps only what compilation gives answers as compilation does. -/
lemma Faithful.permissions_eq_compile (hr : r.Faithful) (roles : List String) :
    (r.permissions roles).1 = r.compile roles := by
  unfold permissions
  split
  · rename_i p hp
    exact (hr roles p (mem_cache_of_cached? hp).2).symm
  · split
    · rename_i p hp
      exact hp.symm
    · rename_i fault hfault
      exact hfault.symm

/-- Whatever a resolver has been asked for, it answers with freshly compiled permissions. -/
theorem permissions_run_eq_compile (schema : Schema) (settings : Settings)
    (requests : List Request) (roles : List String) :
    (((new schema settings).run requests).permissions roles).1 =
      (new schema settings).compile roles := by
  rw [((faithful_new schema settings).run requests).permissions_eq_compile,
    compile_congr (run_fixed _ requests)]

/-! ## Transcripts -/

/-- The answer of a resolver in its present state. -/
def answer (r : Resolver) : Request → Answer
  | .permissions roles => .permissions (r.permissions roles).1
  | .bindings roles identity => .bindings (r.bindings roles identity)
  | .clear => .cleared

/-- The requests with their answers, each given in the state that the requests before have left. -/
def transcript (r : Resolver) : List Request → List (Request × Answer)
  | [] => []
  | q :: requests => (q, r.answer q) :: (r.after q).transcript requests

/-- The role list that an exchange has handed out permissions for. -/
def handedOut? : Request × Answer → Option (List String)
  | (.permissions roles, .permissions (.ok _)) => some roles
  | _ => none

def isClearing : Request × Answer → Bool
  | (.clear, _) => true
  | _ => false

/-- The role lists that permissions have been handed out for since the last clearing, latest first
and with repetitions. -/
def handedOut (exchanges : List (Request × Answer)) : List (List String) :=
  (exchanges.reverse.takeWhile (!isClearing ·)).filterMap handedOut?

lemma handedOut_concat (exchanges : List (Request × Answer)) (e : Request × Answer) :
    handedOut (exchanges ++ [e]) =
      if isClearing e then [] else (handedOut? e).toList ++ handedOut exchanges := by
  unfold handedOut
  rw [List.reverse_append, List.reverse_singleton, List.singleton_append, List.takeWhile_cons]
  cases isClearing e with
  | true => rfl
  | false =>
    simp only [Bool.not_false, if_true, Bool.false_eq_true, if_false, List.filterMap_cons]
    cases handedOut? e <;> rfl

lemma Faithful.answer_eq (hr : r.Faithful) (q : Request) :
    r.answer q = r.schema.answer r.settings q := by
  cases q with
  | permissions roles => exact congrArg Answer.permissions (hr.permissions_eq_compile roles)
  | bindings roles identity => rfl
  | clear => rfl

/-- All answers are those from scratch. -/
theorem Faithful.transcript_eq_map (hr : r.Faithful) (requests : List Request) :
    r.transcript requests = requests.map fun q => (q, r.schema.answer r.settings q) := by
  induction requests generalizing r with
  | nil => rfl
  | cons q requests ih =>
    obtain ⟨hschema, hsettings⟩ := r.after_fixed q
    rw [transcript, List.map_cons, hr.answer_eq, ih (hr.after q), hschema, hsettings]

lemma run_concat (r : Resolver) (requests : List Request) (q : Request) :
    r.run (requests ++ [q]) = (r.run requests).after q := by
  unfold run
  rw [List.foldl_append, List.foldl_cons, List.foldl_nil]

lemma transcript_concat (r : Resolver) (requests : List Request) (q : Request) :
    r.transcript (requests ++ [q]) = r.transcript requests ++ [(q, (r.run requests).answer q)] := by
  induction requests generalizing r with
  | nil => rfl
  | cons p requests ih =>
    rw [List.cons_append, transcript, transcript, ih, List.cons_append]
    rfl

/-! ## What is kept -/

/-- The role lists that permissions are kept for. -/
def keptFor (r : Resolver) : List (List String) := r.cache.map (·.1)

lemma not_mem_keptFor_of_cached? (hkeeps : r.settings.cacheRoleSets = true)
    (h : r.cached? roles = none) : roles ∉ r.keptFor := by
  unfold cached? at h
  rw [if_pos hkeeps] at h
  intro hmem
  obtain ⟨e, he, rfl⟩ := List.mem_map.1 hmem
  simpa using List.lookup_eq_none_iff.1 h e he

/-- The resolver keeps one entry for each role list of `lists`, or nothing if it is not to. -/
structure Keeps (r : Resolver) (lists : List (List String)) : Prop where
  nodup : r.keptFor.Nodup
  mem_iff : ∀ roles, roles ∈ r.keptFor ↔ r.settings.cacheRoleSets = true ∧ roles ∈ lists

lemma keeps_new (schema : Schema) (settings : Settings) : (new schema settings).Keeps [] where
  nodup := List.nodup_nil
  mem_iff roles := by simp [new, keptFor]

/-- A list that is kept already may be listed again. -/
lemma Keeps.again {lists : List (List String)} (h : r.Keeps lists) (hmem : roles ∈ r.keptFor) :
    r.Keeps (roles :: lists) where
  nodup := h.nodup
  mem_iff other := by
    rw [h.mem_iff, List.mem_cons]
    refine and_congr_right fun _ => ⟨.inr, ?_⟩
    rintro (rfl | hother)
    · exact ((h.mem_iff other).1 hmem).2
    · exact hother

lemma Keeps.keep {lists : List (List String)} (h : r.Keeps lists)
    (hcached : r.cached? roles = none) :
    (r.keep roles p).Keeps (roles :: lists) := by
  unfold Resolver.keep
  by_cases hkeeps : r.settings.cacheRoleSets = true
  · rw [if_pos hkeeps]
    refine ⟨List.nodup_cons.2 ⟨not_mem_keptFor_of_cached? hkeeps hcached, h.nodup⟩, fun other => ?_⟩
    have hold : other ∈ r.keptFor ↔ other ∈ lists := by simpa [hkeeps] using h.mem_iff other
    have hcons : other ∈ keptFor { r with cache := (roles, p) :: r.cache } ↔
        other = roles ∨ other ∈ r.keptFor := List.mem_cons
    rw [hcons, hold, List.mem_cons]
    exact (and_iff_right hkeeps).symm
  · rw [if_neg hkeeps]
    refine ⟨h.nodup, fun other => ?_⟩
    rw [h.mem_iff]
    simp [hkeeps]

/-- One exchange changes what is kept as it changes what has been handed out. -/
lemma Keeps.after {exchanges : List (Request × Answer)} (h : r.Keeps (handedOut exchanges))
    (q : Request) : (r.after q).Keeps (handedOut (exchanges ++ [(q, r.answer q)])) := by
  rw [handedOut_concat]
  cases q with
  | bindings roles identity => exact h
  | clear =>
    exact ⟨List.nodup_nil, fun roles => by simp [isClearing, Resolver.after, clear, keptFor]⟩
  | permissions roles =>
    simp only [isClearing, Resolver.after, answer, permissions]
    cases hcached : r.cached? roles with
    | some p => exact h.again (List.mem_map_of_mem (mem_cache_of_cached? hcached).2)
    | none =>
      cases r.compile roles with
      | error fault => exact h
      | ok p => exact h.keep hcached

theorem keeps_run (schema : Schema) (settings : Settings) (requests : List Request) :
    ((new schema settings).run requests).Keeps
      (handedOut ((new schema settings).transcript requests)) := by
  induction requests using List.reverseRecOn with
  | nil => exact keeps_new schema settings
  | append_singleton requests q ih =>
    rw [run_concat, transcript_concat]
    exact ih.after q

lemma Keeps.cachedRoleSets_eq {lists : List (List String)} (h : r.Keeps lists) :
    r.cachedRoleSets = if r.settings.cacheRoleSets then lists.dedup.length else 0 := by
  have hlength : r.cachedRoleSets = r.keptFor.length := (List.length_map _).symm
  rw [hlength]
  by_cases hkeeps : r.settings.cacheRoleSets = true
  · rw [if_pos hkeeps]
    have hmem : ∀ roles, roles ∈ r.keptFor ↔ roles ∈ lists.dedup := by
      intro roles
      rw [h.mem_iff, and_iff_right hkeeps, List.mem_dedup]
    exact ((List.perm_ext_iff_of_nodup h.nodup (List.nodup_dedup lists)).2 hmem).length_eq
  · rw [if_neg hkeeps, List.length_eq_zero_iff, List.eq_nil_iff_forall_not_mem]
    intro roles hroles
    exact hkeeps ((h.mem_iff roles).1 hroles).1

/-- A request that fails finds nothing kept, and leaves the resolver as it was. -/
lemma permissions_of_error {fault : Fault} (h : (r.permissions roles).1 = .error fault) :
    r.cached? roles = none ∧ r.compile roles = .error fault ∧ (r.permissions roles).2 = r := by
  unfold permissions at h ⊢
  cases hcached : r.cached? roles with
  | some p => simp [hcached] at h
  | none =>
    cases hcompile : r.compile roles with
    | ok p => simp [hcached, hcompile] at h
    | error other =>
      obtain rfl : other = fault := by simpa [hcached, hcompile] using h
      exact ⟨rfl, rfl, rfl⟩

/-- Keeping permissions does not show in any answer: all answers are those from scratch, whether
permissions are kept or not. A request that fails leaves everything as it was and is compiled again
the next time, bindings touch nothing, and what is kept is one entry for each different role list
that permissions have been handed out for since the last clearing. -/
theorem keeping_is_invisible (schema : Schema) (settings : Settings) (requests : List Request) :
    (new schema settings).transcript requests =
        requests.map (fun q => (q, schema.answer settings q)) ∧
      (∀ cacheRoleSets, (new schema { settings with cacheRoleSets }).transcript requests =
        (new schema settings).transcript requests) ∧
      (∀ roles fault,
        (((new schema settings).run requests).permissions roles).1 = .error fault →
          (((new schema settings).run requests).permissions roles).2 =
              (new schema settings).run requests ∧
            ((new schema settings).run requests).permissionsEvents roles =
              schema.compileEvents roles settings.variablePrefix ++ [.compilationFailed fault]) ∧
      (∀ roles identity, ((new schema settings).run requests).after (.bindings roles identity) =
        (new schema settings).run requests) ∧
      ((new schema settings).run requests).cachedRoleSets =
        if settings.cacheRoleSets then
          (handedOut ((new schema settings).transcript requests)).dedup.length
        else 0 := by
  have hfixed := run_fixed (new schema settings) requests
  have hfresh := (faithful_new schema settings).transcript_eq_map requests
  refine ⟨hfresh, fun cacheRoleSets => ?_, fun roles fault h => ?_, fun _ _ => rfl, ?_⟩
  · rw [hfresh]
    exact (faithful_new schema { settings with cacheRoleSets }).transcript_eq_map requests
  · obtain ⟨hcached, hcompile, hsame⟩ := permissions_of_error h
    refine ⟨hsame, ?_⟩
    rw [permissionsEvents, hcached, hcompile, hfixed.1, hfixed.2]
    rfl
  · rw [(keeps_run schema settings requests).cachedRoleSets_eq, hfixed.2]
    rfl

/-- The editor inherits the reader, and the ghost inherits itself. -/
def archive : Schema where
  model := {}
  acl := ({} : RoleSchema)
    |>.declare "reader" {}
    |>.declare "editor" { inherits := ["reader"] }
    |>.declare "ghost" { inherits := ["ghost"] }

/-- Lists are kept by their order, anew after the clearing, and a list that fails is not kept. -/
def archiveRequests : List Request :=
  [.permissions ["reader"], .clear, .permissions ["reader", "editor"], .permissions ["ghost"],
    .permissions ["editor", "reader"], .bindings ["editor"] {}, .permissions ["reader", "editor"]]

theorem archive_keeps_two_lists :
    ((new archive {}).run archiveRequests).cachedRoleSets = 2 ∧
      (((new archive {}).run archiveRequests).permissions ["ghost"]).2 =
        (new archive {}).run archiveRequests := by
  obtain ⟨_, _, hfailing, _, hkept⟩ := keeping_is_invisible archive {} archiveRequests
  have hlists : (handedOut ((new archive {}).transcript archiveRequests)).dedup.length = 2 := by
    decide +kernel
  have hfault : faultOf (((new archive {}).run archiveRequests).permissions ["ghost"]).1 =
      some (.cyclicInheritance ["ghost", "ghost"]) := by
    decide +kernel
  refine ⟨hkept.trans hlists, ?_⟩
  cases h : (((new archive {}).run archiveRequests).permissions ["ghost"]).1 with
  | ok p => simp [faultOf, h] at hfault
  | error fault => exact (hfailing ["ghost"] fault h).1

end Resolver

end RoleAccess
