import Mathlib.Data.List.Chain
import SchemaRules.Proofs.Selection

/-!
# What another trial can show

A rule is tried again when it misses a key, on the sample with that key in its maps. The keys of a
sample are seen in its maps only, and there all of them are seen.

* `Declaration.sample_map_eq_iff`, `Declaration.sample_object_eq_iff`: what the keys change in a
  declaration of each kind.
* `Declaration.sample_eq_iff`: **two samples are the same exactly if there is no map or the keys are
  the same**, by induction on the declaration.
* `Environment.Follows`: **what one trial hands on to the next**; `Environment.isChain_trials`: a
  run of trials goes on like that, so its keys grow.
* `Environment.next_trial`, `Environment.sample_ne_of_missed`: a key that a run misses is added for
  the next trial and makes a sample of its own.
* `keys_show_in_maps_alone`: all of it for a declaration and the runs at it.
-/

namespace SchemaRules

namespace Declaration

/-- **The same keys to ask for**, the empty one aside, which every map of a sample has. -/
def SameKeys (keys keys' : List String) : Prop :=
  ∀ key, key ≠ "" → (key ∈ keys ↔ key ∈ keys')

variable {keys keys' : List String} {d : Declaration}

/-! ## Samples with other keys -/

theorem sample_list_eq_iff :
    (list d).sample keys = (list d).sample keys' ↔ d.sample keys = d.sample keys' := by
  rw [sample, sample, Json.arr.injEq, List.cons.injEq, eq_self, and_true]

/-- **Fields show what their own samples show.** -/
theorem sample_object_eq_iff {name : String} {ds : List (String × Declaration)} :
    (object name ds).sample keys = (object name ds).sample keys' ↔
      ∀ e ∈ ds, e.2.sample keys = e.2.sample keys' := by
  rw [sample, sample, Json.obj.injEq, sampleFields_eq_map, sampleFields_eq_map, List.map_inj_left]
  simp only [Prod.mk.injEq, true_and]

/-- The entries of a map with one value are known by their keys. -/
theorem sampleEntries_congr (h : SameKeys keys keys') (v : Json) :
    sampleEntries keys v = sampleEntries keys' v := by
  refine (ordered_sampleEntries keys v).eq_of_mem_iff (ordered_sampleEntries keys' v) fun e => ?_
  rw [mem_sampleEntries_iff, mem_sampleEntries_iff, List.mem_cons, List.mem_cons,
    or_congr_right' (h e.1)]

theorem sameKeys_of_sampleEntries_eq {v v' : Json}
    (h : sampleEntries keys v = sampleEntries keys' v') : SameKeys keys keys' := by
  intro key hkey
  calc
    key ∈ keys ↔ key ∈ "" :: keys := (List.mem_cons.trans (or_iff_right hkey)).symm
    _ ↔ key ∈ "" :: keys' := by
      rw [← mem_names_sampleEntries_iff, h, mem_names_sampleEntries_iff]
    _ ↔ key ∈ keys' := List.mem_cons.trans (or_iff_right hkey)

/-- **A map shows its keys**, and what the samples of its values show. -/
theorem sample_map_eq_iff :
    (map d).sample keys = (map d).sample keys' ↔
      d.sample keys = d.sample keys' ∧ SameKeys keys keys' := by
  constructor
  · intro h
    have hentries : sampleEntries keys (d.sample keys) = sampleEntries keys' (d.sample keys') :=
      Json.obj.inj h
    -- both maps have the empty key, and under it the samples of the values
    have hempty : ("", d.sample keys) ∈ sampleEntries keys' (d.sample keys') := by
      rw [← hentries]
      exact mem_sampleEntries_iff.2 ⟨List.mem_cons_self, rfl⟩
    exact ⟨(mem_sampleEntries_iff.1 hempty).2, sameKeys_of_sampleEntries_eq hentries⟩
  · rintro ⟨hvalues, hkeys⟩
    have hentries : sampleEntries keys (d.sample keys) = sampleEntries keys' (d.sample keys') := by
      rw [hvalues]
      exact sampleEntries_congr hkeys _
    exact congrArg Json.obj hentries

theorem containsMapFields_eq_false_iff {ds : List (String × Declaration)} :
    containsMapFields ds = false ↔ ∀ e ∈ ds, e.2.containsMap = false := by
  rw [← Bool.not_eq_true, containsMapFields_iff, not_exists]
  simp only [not_and, Bool.not_eq_true]

/-- **When two samples are the same**: there is no map to show the keys, or the keys are the
same. -/
theorem sample_eq_iff :
    d.sample keys = d.sample keys' ↔ d.containsMap = false ∨ SameKeys keys keys' := by
  induction d using induct with
  | bool | int | double | string => exact iff_of_true rfl (.inl rfl)
  | list d ih => exact sample_list_eq_iff.trans ih
  | map d ih =>
    rw [sample_map_eq_iff, ih, containsMap]
    constructor
    · rintro ⟨-, hkeys⟩
      exact .inr hkeys
    · rintro (hno | hkeys)
      · cases hno
      · exact ⟨.inr hkeys, hkeys⟩
  | object name ds ih =>
    rw [sample_object_eq_iff, containsMap, containsMapFields_eq_false_iff]
    by_cases hkeys : SameKeys keys keys'
    · exact iff_of_true (fun e he => (ih e he).2 (.inr hkeys)) (.inr hkeys)
    · rw [or_iff_left hkeys]
      exact forall₂_congr fun e he => (ih e he).trans (or_iff_left hkeys)

/-- A key that only one of two samples was asked for keeps them apart. -/
theorem sample_ne_of_mem (hmap : d.containsMap = true) {key : String} (hkey : key ≠ "")
    (hmem : key ∈ keys) (hnew : key ∉ keys') : d.sample keys ≠ d.sample keys' := by
  rw [ne_eq, sample_eq_iff, hmap]
  rintro (hno | hkeys)
  · cases hno
  · exact hnew ((hkeys key hkey).1 hmem)

end Declaration

/-! ## Runs of trials -/

namespace Environment

variable {env : Environment} {e : Expr} {t u : Trial} {key : String}

/-- **A missed key leads to another trial exactly if it changes the sample.** -/
theorem missed?_eq_some_iff_sample_ne (ht : t.answer = .error (.noSuchKey key))
    (hnew : key ∉ t.keys) (hkey : key ≠ "") :
    env.missed? t = some key ↔ env.root.sample (key :: t.keys) ≠ env.root.sample t.keys := by
  rw [missed?_eq_some_iff]
  constructor
  · rintro ⟨-, hmap, -⟩
    exact Declaration.sample_ne_of_mem hmap hkey List.mem_cons_self hnew
  · intro hne
    have hmap : ¬ env.root.containsMap = false := fun hno =>
      hne (Declaration.sample_eq_iff.2 (.inl hno))
    exact ⟨ht, eq_true_of_ne_false hmap, hnew⟩

/-- Without a map no key leads to another trial. -/
theorem missed?_eq_none (hmap : env.root.containsMap = false) (t : Trial) :
    env.missed? t = none := by
  cases h : env.missed? t with
  | none => rfl
  | some key =>
    rw [(missed?_eq_some_iff.1 h).2.1] at hmap
    cases hmap

/-- **A trial and the next one**, on the sample with the key that was missed. -/
def Follows (env : Environment) (e : Expr) (t u : Trial) : Prop :=
  ∃ key s, env.missed? t = some key ∧ u = env.trial e (key :: t.keys) s

/-- No key is given up again. -/
theorem Follows.subset (h : env.Follows e t u) : t.keys ⊆ u.keys := by
  obtain ⟨key, s, -, rfl⟩ := h
  exact List.subset_cons_self key t.keys

/-- **A run is a chain of trials.** -/
theorem isChain_trials (env : Environment) (e : Expr) :
    ∀ fuel keys s, (env.trials e fuel keys s).IsChain (env.Follows e) := by
  intro fuel
  induction fuel with
  | zero => exact fun keys s => List.isChain_singleton _
  | succ fuel ih =>
    intro keys s
    cases h : env.missed? (env.trial e keys s.here) with
    | none =>
      rw [trials_of_conclusive h]
      exact List.isChain_singleton _
    | some key =>
      rw [trials_of_missed h]
      refine (ih (key :: keys) s.next).cons fun u hu => ⟨key, s.next.here, h, ?_⟩
      rw [head?_trials, Option.mem_some_iff] at hu
      exact hu.symm

/-- **The keys of a run grow.** -/
theorem pairwise_trials (env : Environment) (e : Expr) (fuel : Nat) (keys : List String)
    (s : Seed) : (env.trials e fuel keys s).Pairwise fun t u => t.keys ⊆ u.keys := by
  have : Trans (fun t u : Trial => t.keys ⊆ u.keys) (fun t u : Trial => t.keys ⊆ u.keys)
      fun t u : Trial => t.keys ⊆ u.keys := ⟨List.Subset.trans⟩
  exact ((isChain_trials env e fuel keys s).imp fun _ _ h => h.subset).pairwise

/-- **The trial behind one that misses a key** is on the sample with this key, by the part of the
seed of its number. -/
theorem next_trial {fuel : Nat} {keys : List String} {s : Seed} {earlier later : List Trial}
    (hrun : env.trials e fuel keys s = earlier ++ t :: later) (ht : env.missed? t = some key) :
    ∀ next ∈ later.head?, next = env.trial e (key :: t.keys) (s.item (earlier.length + 1)) := by
  intro next hnext
  have hchain := isChain_trials env e fuel keys s
  rw [hrun, List.isChain_split, List.isChain_cons] at hchain
  obtain ⟨new, u, hnew, rfl⟩ := hchain.2.1 next hnext
  obtain rfl : new = key := Option.some.inj (hnew.symm.trans ht)
  have hat : (env.trials e fuel keys s)[earlier.length + 1]? =
      some (env.trial e (new :: t.keys) u) := by
    rw [hrun, List.getElem?_append_right (Nat.le_add_right _ _), Nat.add_sub_cancel_left,
      List.getElem?_cons_succ, ← List.head?_eq_getElem?]
    exact hnext
  exact (getElem?_trials env e _ _ _ _ _ hat).2.2

/-- **A new key makes a sample that was not tried before.** -/
theorem sample_ne_of_missed {fuel : Nat} {keys : List String} {s : Seed}
    {earlier later : List Trial} (hrun : env.trials e fuel keys s = earlier ++ t :: later)
    (ht : env.missed? t = some key) (hkey : key ≠ "") (hu : u ∈ earlier ++ [t]) :
    env.root.sample (key :: t.keys) ≠ env.root.sample u.keys := by
  obtain ⟨-, hmap, hnew⟩ := missed?_eq_some_iff.1 ht
  have hsub : u.keys ⊆ t.keys := by
    rcases List.mem_append.1 hu with hu | hu
    · have hpairs := pairwise_trials env e fuel keys s
      rw [hrun] at hpairs
      exact (List.pairwise_append.1 hpairs).2.2 u hu t List.mem_cons_self
    · rw [List.mem_singleton.1 hu]
      exact List.Subset.refl _
  exact Declaration.sample_ne_of_mem hmap hkey List.mem_cons_self fun hmem => hnew (hsub hmem)

end Environment

open Environment in
/-- **The keys of a sample show in its maps alone, and there all of them show.** Two samples of a
declaration are the same if and only if no map occurs in it or both were asked for the same keys,
the empty one aside, which every map has.

So a key that is missed for the first time leads to another trial exactly if it changes the sample.
Without a map a run is one trial, and keys would not change its answer. With one, every key that is
missed on the way is added for the next trial and, unless it is empty, makes a sample that differs
from all samples before. -/
theorem keys_show_in_maps_alone (d : Declaration) :
    (∀ keys keys', d.sample keys = d.sample keys' ↔
      d.containsMap = false ∨ Declaration.SameKeys keys keys') ∧
    ∀ (env : Environment) (e : Expr), env.root = d →
      (∀ t key, t.answer = .error (.noSuchKey key) → key ∉ t.keys → key ≠ "" →
        (env.missed? t = some key ↔ d.sample (key :: t.keys) ≠ d.sample t.keys)) ∧
      (d.containsMap = false → ∀ fuel keys s,
        env.trials e fuel keys s = [env.trial e keys s.here] ∧
        ∀ keys', (env.trial e keys' s.here).answer = (env.trial e keys s.here).answer) ∧
      ∀ fuel keys s earlier t later key, env.trials e fuel keys s = earlier ++ t :: later →
        env.missed? t = some key →
        (∀ next ∈ later.head?,
          next = env.trial e (key :: t.keys) (s.item (earlier.length + 1))) ∧
        (key ≠ "" → ∀ u ∈ earlier ++ [t], d.sample (key :: t.keys) ≠ d.sample u.keys) := by
  refine ⟨fun _ _ => Declaration.sample_eq_iff, ?_⟩
  rintro env e rfl
  refine ⟨fun t key ht hnew hkey => missed?_eq_some_iff_sample_ne ht hnew hkey, ?_, ?_⟩
  · intro hmap fuel keys s
    refine ⟨trials_of_conclusive (missed?_eq_none hmap _) fuel, fun keys' => ?_⟩
    rw [trial, trial, Declaration.sample_eq_iff.2 (.inl hmap)]
  · intro fuel keys s earlier t later key hrun ht
    exact ⟨next_trial hrun ht, fun hkey u hu => sample_ne_of_missed hrun ht hkey hu⟩

/-- The rules of an object with labels. -/
def labelled : Environment where
  scopeVariable := "self"
  root := .object "self" [("labels", .map .string), ("ports", .list .int)]
  shorthands := [("labels", .map .string), ("ports", .list .int)]

/-- The rules of a list of ports. -/
def listed : Environment where
  scopeVariable := "self"
  root := .list .int
  shorthands := []

/-- One label by its name. -/
def appLabel : Expr :=
  .member (.member (.name "self") "labels") "app"

open Environment in
/-- A label that is missed is tried on a second sample; ports have one sample only. -/
theorem missed_label_is_tried_again :
    labelled.root.sample ["app", "app"] = labelled.root.sample ["", "app"] ∧
    labelled.root.sample ["app", "web"] ≠ labelled.root.sample ["app"] ∧
    labelled.missed? (labelled.trial appLabel [] Seed.standard.here) = some "app" ∧
    labelled.trials appLabel keyLimit [] .standard =
      [labelled.trial appLabel [] Seed.standard.here,
        labelled.trial appLabel ["app"] Seed.standard.next.here] ∧
    labelled.root.sample ["app"] ≠ labelled.root.sample [] ∧
    listed.trials appLabel keyLimit [] .standard =
      [listed.trial appLabel [] Seed.standard.here] := by
  obtain ⟨hsame, hruns⟩ := keys_show_in_maps_alone labelled.root
  obtain ⟨hmissed, -, hrun⟩ := hruns labelled appLabel rfl
  obtain ⟨-, hone, -⟩ := (keys_show_in_maps_alone listed.root).2 listed appLabel rfl
  have hanswer : (labelled.trial appLabel [] Seed.standard.here).answer =
      .error (.noSuchKey "app") := rfl
  have htrials : labelled.trials appLabel keyLimit [] .standard =
      [labelled.trial appLabel [] Seed.standard.here,
        labelled.trial appLabel ["app"] Seed.standard.next.here] := rfl
  have hmiss : labelled.missed? (labelled.trial appLabel [] Seed.standard.here) = some "app" := rfl
  obtain ⟨-, hnew⟩ := hrun keyLimit [] .standard [] _ _ "app" htrials hmiss
  have hdiffers := hnew (by decide) _ List.mem_cons_self
  refine ⟨(hsame _ _).2 (.inr fun k hk => by simp [hk]), fun h => ?_,
    (hmissed _ _ hanswer List.not_mem_nil (by decide)).2 hdiffers, htrials, hdiffers,
    (hone rfl keyLimit [] .standard).1⟩
  rcases (hsame _ _).1 h with hmap | hkeys
  · cases hmap
  · exact absurd ((hkeys "web" (by decide)).1 (by decide)) (by decide)

end SchemaRules
