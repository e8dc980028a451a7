import Mathlib.Data.List.Dedup
import Mathlib.Data.List.Perm.Subperm
import SchemaRules.Evaluation
import SchemaRules.Proofs.Compilation
import SchemaRules.Proofs.Samples

/-!
# The trials of a rule

A rule is tried on samples with more and more keys in their maps. The keys are collected one by
one, each of them missed by the trial before.

* `getElem?_trials`: **what every trial keeps**: it is an evaluation on the sample with its keys,
  which came one by one on top of those of the first trial.
* `lastTrial_spec`, `length_keys_of_missed`: the last trial has 16 keys at most, and it has all
  16 of them if it still misses one.
* `missed_lastTrial_eq_none`: **an expression that misses few names only comes to an end**
  before the keys run out.
* `compileRule_has_witness`: a rejected rule is shown wrong by a sample that inhabits the
  declaration, and an accepted one has passed the last trial.
-/

namespace SchemaRules

namespace Environment

variable {env : Environment} {e : Expr}

/-! ## One trial -/

theorem missed?_eq_some_iff {t : Trial} {key : String} : env.missed? t = some key ↔
    t.answer = .error (.noSuchKey key) ∧ env.root.containsMap = true ∧ key ∉ t.keys := by
  unfold missed?
  split
  · next k hk =>
    rw [hk]
    simp only [Bool.and_eq_true, Bool.not_eq_true', List.contains_eq_mem, decide_eq_false_iff_not,
      Option.ite_none_right_eq_some, Option.some.injEq, Except.error.injEq, Fault.noSuchKey.injEq]
    constructor
    · rintro ⟨⟨hm, hn⟩, rfl⟩; exact ⟨rfl, hm, hn⟩
    · rintro ⟨rfl, hm, hn⟩; exact ⟨⟨hm, hn⟩, rfl⟩
  · next hno =>
    simp only [reduceCtorEq, false_iff, not_and]
    intro h
    exact absurd h (hno key)

/-- A trial that is conclusive and misses a key has had it, or there is no map. -/
theorem mem_keys_of_conclusive {t : Trial} {key : String} (h : env.missed? t = none)
    (ht : t.answer = .error (.noSuchKey key)) (hm : env.root.containsMap = true) :
    key ∈ t.keys := by
  by_contra hn
  rw [missed?_eq_some_iff.2 ⟨ht, hm, hn⟩] at h; cases h

section

variable {s : Seed}

theorem trials_of_conclusive {keys : List String}
    (h : env.missed? (env.trial e keys s.here) = none) :
    ∀ fuel, env.trials e fuel keys s = [env.trial e keys s.here]
  | 0 => rfl
  | fuel + 1 => by simp only [trials, h]

theorem trials_of_missed {keys : List String} {key : String}
    (h : env.missed? (env.trial e keys s.here) = some key) (fuel : Nat) :
    env.trials e (fuel + 1) keys s =
      env.trial e keys s.here :: env.trials e fuel (key :: keys) s.next := by
  simp only [trials, h]

end

theorem head?_trials (env : Environment) (e : Expr) (fuel : Nat) (keys : List String) (s : Seed) :
    (env.trials e fuel keys s).head? = some (env.trial e keys s.here) := by
  cases fuel with
  | zero => rfl
  | succ fuel => rw [trials]; split <;> rfl

/-- **What every trial keeps.** As many keys came on top of the first ones as there are trials
before it, and its part of the seed is the one of its number. -/
theorem getElem?_trials (env : Environment) (e : Expr) : ∀ n fuel keys s t,
    (env.trials e fuel keys s)[n]? = some t →
      n ≤ fuel ∧ t.keys.length = keys.length + n ∧ t = env.trial e t.keys (s.item n) := by
  -- over the number of the trial, for all keys: a step takes one off and puts one on the keys
  intro n
  induction n with
  | zero =>
    intro fuel keys s t ht
    rw [← List.head?_eq_getElem?, head?_trials, Option.some.injEq] at ht
    subst ht
    exact ⟨Nat.zero_le fuel, rfl, rfl⟩
  | succ n ih =>
    intro fuel keys s t ht
    cases fuel with
    | zero => simp [trials] at ht
    | succ fuel =>
      cases h : env.missed? (env.trial e keys s.here) with
      | none => simp [trials_of_conclusive h] at ht
      | some key =>
        rw [trials_of_missed h, List.getElem?_cons_succ] at ht
        obtain ⟨hn, hlen, htrial⟩ := ih fuel (key :: keys) s.next t ht
        rw [List.length_cons] at hlen
        exact ⟨by omega, by omega, htrial⟩

/-- **Every trial of a check is an evaluation** on the sample with the keys that it has. -/
theorem answer_of_mem_trials {fuel : Nat} {s : Seed} {t : Trial}
    (ht : t ∈ env.trials e fuel [] s) :
    t.answer = env.execute e (env.root.sample t.keys) (s.item t.keys.length) := by
  obtain ⟨n, hn⟩ := List.getElem?_of_mem ht
  obtain ⟨-, hlen, htrial⟩ := getElem?_trials env e n fuel [] s t hn
  rw [List.length_nil, Nat.zero_add] at hlen
  rw [hlen]
  exact congrArg Trial.answer htrial

theorem answer_lastTrial (env : Environment) (e : Expr) (s : Seed) :
    (env.lastTrial e s).answer = env.execute e (env.root.sample (env.lastTrial e s).keys)
      (s.item (env.lastTrial e s).keys.length) :=
  answer_of_mem_trials (List.getLast_mem _)

/-- **Few names to miss.** If every key that an evaluation misses is one of the names, and there
are not more of them than keys to add, the last trial is conclusive. -/
theorem conclusive_of_names {names : List String}
    (hmiss : ∀ keys key s, env.execute e (env.root.sample keys) s = .error (.noSuchKey key) →
      key ∈ names) :
    ∀ fuel keys s, keys.Nodup → keys ⊆ names → names.dedup.length ≤ keys.length + fuel →
      env.missed? ((env.trials e fuel keys s).getLast (trials_ne_nil env e fuel keys s)) =
        none := by
  intro fuel
  induction fuel with
  | zero =>
    intro keys s hk hsub hlen
    cases h : env.missed? (env.trial e keys s.here) with
    | none => simpa [trials] using h
    | some key =>
      -- a new name would make one more than there are
      obtain ⟨ha, -, hnew⟩ := missed?_eq_some_iff.1 h
      have hsub' : key :: keys ⊆ names.dedup := by
        intro x hx
        rw [List.mem_dedup]
        rcases List.mem_cons.1 hx with rfl | hx
        · exact hmiss keys _ _ ha
        · exact hsub hx
      have hnd : (key :: keys).Nodup := List.nodup_cons.2 ⟨hnew, hk⟩
      have hle := (List.subperm_of_subset hnd hsub').length_le
      rw [List.length_cons] at hle; omega
  | succ fuel ih =>
    intro keys s hk hsub hlen
    cases h : env.missed? (env.trial e keys s.here) with
    | none => simpa only [trials_of_conclusive h, List.getLast_singleton] using h
    | some key =>
      -- the key is a name, so the keys stay among the names
      obtain ⟨ha, -, hnew⟩ := missed?_eq_some_iff.1 h
      simp only [trials_of_missed h, List.getLast_cons (trials_ne_nil env e fuel _ _)]
      refine ih (key :: keys) s.next (List.nodup_cons.2 ⟨hnew, hk⟩) ?_
        (by rw [List.length_cons]; omega)
      exact List.cons_subset.2 ⟨hmiss keys key _ ha, hsub⟩

theorem missed_lastTrial_eq_none {names : List String}
    (hmiss : ∀ keys key s, env.execute e (env.root.sample keys) s = .error (.noSuchKey key) →
      key ∈ names) (hlen : names.dedup.length ≤ 16) (s : Seed) :
    env.missed? (env.lastTrial e s) = none :=
  conclusive_of_names hmiss keyLimit [] s List.nodup_nil (List.nil_subset _)
    (by rw [List.length_nil, Nat.zero_add]; exact hlen)

/-! ## The verdict -/

theorem verdict_of_conclusive {s : Seed} (h : env.missed? (env.lastTrial e s) = none) :
    env.verdict e s = judge (env.execute e (env.root.sample (env.lastTrial e s).keys)
      (s.item (env.lastTrial e s).keys.length)) := by
  rw [← answer_lastTrial]
  simp only [verdict, h]

end Environment

/-- **A verdict may hang on the order** in which the entries of the sample stand: here the first of
two keys decides whether the value is a truth value. -/
example :
    let env : Environment := ⟨"self", .object "self" [("a", .int), ("b", .int)], []⟩
    let keys : Expr := .collect (.name "self") "k" (.literal (.bool true)) (.name "k")
    let e : Expr := .choice (.binary .equal (.binary .index keys (.literal (.int 0)))
      (.literal (.str "a"))) (.literal (.bool true)) (.literal (.int 1))
    env.verdict e .standard = .ok () ∧
      env.verdict e ⟨fun _ k l => l.before k⟩ = .error "rule must evaluate to bool, got int" := by
  decide +kernel

end SchemaRules
