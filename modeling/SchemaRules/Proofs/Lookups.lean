import SchemaRules.Proofs.Places

/-!
# Lookups in maps

An entry of a map is read as a member, `m.k`, or by an index, `m["k"]`. Where the map holds the key
both have its value. Where it does not, the member is at fault and the index is null.

* `lookups_agree_where_held`: **two rules that differ in one read agree** on all data whose maps
  hold the key where it is read, and only samples without the key can tell them apart.
* `verdict_indexed`, `verdict_member`: what the check says of a comparison with either read. It
  adds the key of a member to the sample and not that of an index, so an index is compared as null.
-/

namespace SchemaRules

namespace Value

/-! ## Entries of a map -/

variable {entries : List (Key × Value)} {key : String} {w : Value}

theorem member_of_lookup (h : lookup? (.str key) entries = some w) :
    (map entries).member key = .ok w := by
  rw [member]
  simp only [h]

theorem index_of_lookup (h : lookup? (.str key) entries = some w) :
    (map entries).index (.str key) = .ok w := by
  rw [index]
  simp only [toKey?, h]

/-- **An index of a missing key is null.** -/
theorem index_of_lookup_eq_none (h : lookup? (.str key) entries = none) :
    (map entries).index (.str key) = .ok null := by
  rw [index]
  simp only [toKey?, h, otherKey?, Option.bind_none, Option.getD_none]

end Value

/-! ## Reads of an entry -/

/-- The entry of a map under a text, by an index. -/
def Expr.indexed (m : Expr) (key : String) : Expr :=
  .binary .index m (.literal (.str key))

theorem Expr.member_chain (x : String) (path : List String) (key : String) :
    .member (chain x path) key = chain x (path ++ [key]) := by
  rw [chain, chain, List.foldl_append]
  rfl

/-- **Both reads of an entry have the same outcome** where the map holds the key. -/
theorem Expr.eval_indexed {scope : Scope} {m : Expr} {key : String} {s : Seed}
    (h : ∀ w, eval scope m s.here = .ok w →
      ∃ entries x, w = .map entries ∧ Value.lookup? (.str key) entries = some x) :
    eval scope (indexed m key) s = eval scope (.member m key) s := by
  rw [indexed, eval, eval]
  cases hw : eval scope m s.here with
  | error f => rfl
  | ok w =>
    obtain ⟨entries, x, rfl, hx⟩ := h w hw
    rw [eval]
    exact (Value.index_of_lookup hx).trans (Value.member_of_lookup hx).symm

namespace Declaration

/-- What is reached in a sample is a sample. -/
theorem sample_of_reaches {keys : List String} {d d' : Declaration} {v : Json}
    (h : d.Reaches (d.sample keys) d' v) : v = d'.sample keys :=
  ((everywhere_sample (P := fun d v => v = d.sample keys) (fun _ => rfl) d).of_reaches h).here

/-- **A map in a sample** holds the empty key and the keys of the sample. -/
theorem map_of_at_sample {d t : Declaration} {key : String} {keys : List String} {w : Value}
    (h : d.At (d.sample keys) (map t) w) (hkey : key ∈ "" :: keys) :
    ∃ entries x, w = .map entries ∧ Value.lookup? (.str key) entries = some x := by
  obtain ⟨u, s, hreach, rfl⟩ := h
  obtain rfl := sample_of_reaches hreach
  obtain ⟨fields, hs, hget⟩ := sample_map keys t
  refine ⟨s.arrange (convertValues t fields s), t.convert (t.sample keys) (s.under key),
    by rw [hs]; rfl, ?_⟩
  rw [Seed.lookup?_arrange, lookup?_convertValues, hget, if_pos (List.mem_cons.1 hkey)]
  rfl

theorem resolve_append {t : Declaration} {key : String} (path : List String) :
    ∀ {d : Declaration}, d.resolve path = .ok (map t) → d.resolve (path ++ [key]) = .ok t := by
  induction path with
  | nil =>
    intro d h
    cases h
    rfl
  | cons k rest ih =>
    intro d h
    cases d with
    | map d => exact ih h
    | object name ds =>
      rw [resolve] at h
      rw [List.cons_append, resolve]
      cases hd : Fields.get? k ds with
      | none => rw [hd] at h; cases h
      | some d => rw [hd] at h; exact ih h
    | _ => cases h

end Declaration

/-! ## Rules that differ in one read -/

namespace Environment

variable {env : Environment}

/-- **Two expressions that differ in one read agree** on an instance if the map that is read holds
the key. -/
theorem execute_fill_indexed {c : Expr.Context} {m : Expr} {key : String} {v : Json} {s : Seed}
    (h : ∀ inner t w, c.Opens (env.bindings v s.here) s.next inner t →
      m.eval inner t.here = .ok w →
      ∃ entries x, w = .map entries ∧ Value.lookup? (.str key) entries = some x) :
    env.execute (c.fill (.indexed m key)) v s = env.execute (c.fill (.member m key)) v s := by
  rw [execute, execute]
  congr 1
  exact Expr.eval_fill_congr c fun inner t hopen =>
    Expr.eval_indexed fun w hw => h inner t w hopen hw

/-- Expressions with the same answers on all samples have the same trials. -/
theorem trials_congr {a b : Expr} (h : ∀ keys s,
    env.execute a (env.root.sample keys) s = env.execute b (env.root.sample keys) s) :
    ∀ fuel keys s, env.trials a fuel keys s = env.trials b fuel keys s := by
  have htrial : ∀ keys s, env.trial a keys s = env.trial b keys s := by
    intro keys s
    rw [trial, trial, h]
  intro fuel
  induction fuel with
  | zero =>
    intro keys s
    rw [trials, trials, htrial]
  | succ fuel ih =>
    intro keys s
    rw [trials, trials]
    simp only [htrial, ih]

theorem verdict_congr {a b : Expr} (h : ∀ keys s,
    env.execute a (env.root.sample keys) s = env.execute b (env.root.sample keys) s) (s : Seed) :
    env.verdict a s = env.verdict b s := by
  have hlast : env.lastTrial a s = env.lastTrial b s := by
    unfold lastTrial
    simp only [trials_congr h]
  rw [verdict, verdict, hlast]

/-! ## Comparisons of an entry -/

theorem keys_subset_of_names {e : Expr} {names : List String}
    (hmiss : ∀ keys key s, env.execute e (env.root.sample keys) s = .error (.noSuchKey key) →
      key ∈ names) :
    ∀ fuel keys s, keys ⊆ names → ∀ t ∈ env.trials e fuel keys s, t.keys ⊆ names := by
  intro fuel
  induction fuel with
  | zero =>
    intro keys s hsub t ht
    cases List.mem_singleton.1 ht
    exact hsub
  | succ fuel ih =>
    intro keys s hsub t ht
    cases h : env.missed? (env.trial e keys s.here) with
    | none =>
      rw [trials_of_conclusive h] at ht
      cases List.mem_singleton.1 ht
      exact hsub
    | some key =>
      rw [trials_of_missed h, List.mem_cons] at ht
      rcases ht with rfl | ht
      · exact hsub
      · have hkey := hmiss keys key _ (missed?_eq_some_iff.1 h).1
        exact ih (key :: keys) s.next (List.cons_subset.2 ⟨hkey, hsub⟩) t ht

variable {op : Binary} {path : List String} {key : String} {t : Declaration} {v : Value}

/-- **An index of a map on a sample** has a value, which is null unless the sample holds the key. -/
theorem index_sample (t : Declaration) (key : String) (keys : List String) (s : Seed) :
    ∃ w, ((Declaration.map t).convert ((Declaration.map t).sample keys) s).index (.str key) =
        .ok w ∧ (¬ (key = "" ∨ key ∈ keys) → w = .null) := by
  obtain ⟨fields, hs, hget⟩ := Declaration.sample_map keys t
  have hlookup := Declaration.lookup?_convertValues t key fields s
  rw [hget, ← Seed.lookup?_arrange s] at hlookup
  rw [hs, Declaration.convert]
  by_cases hkey : key = "" ∨ key ∈ keys
  · rw [if_pos hkey] at hlookup
    exact ⟨_, Value.index_of_lookup hlookup, fun hno => absurd hkey hno⟩
  · rw [if_neg hkey] at hlookup
    exact ⟨.null, Value.index_of_lookup_eq_none hlookup, fun _ => rfl⟩

/-- **A comparison of an index on a sample.** The index has a value, which is null unless the sample
holds the key, or the chain misses a key that the sample was not asked to hold. -/
theorem execute_indexed_cases (hmap : env.root.resolve path = .ok (.map t)) (op : Binary)
    (key : String) (v : Value) (keys : List String) (s : Seed) :
    (∃ w, (¬ (key = "" ∨ key ∈ keys) → w = .null) ∧
      env.execute (.binary op (.indexed (.chain env.scopeVariable path) key) (.literal v))
        (env.root.sample keys) s = contained (Expr.Binary.onValues op w v)) ∨
    ∃ k ∈ path, env.execute (.binary op (.indexed (.chain env.scopeVariable path) key) (.literal v))
        (env.root.sample keys) s = .error (.noSuchKey k) ∧
      env.root.containsMap = true ∧ k ∉ keys := by
  rcases Declaration.select_sample_cases keys path env.root s.here with
    ⟨t', u, ht', hselect⟩ | ⟨k, hk, hselect, hfail⟩
  · obtain rfl : Declaration.map t = t' := Except.ok.inj (hmap.symm.trans ht')
    obtain ⟨w, hw, hnull⟩ := index_sample t key keys u
    refine .inl ⟨w, hnull, ?_⟩
    have hindexed : ∀ r, (Expr.indexed (.chain env.scopeVariable path) key).eval
        (env.bindings (env.root.sample keys) s.here) r = .ok w := by
      intro r
      rw [Expr.indexed, Expr.eval, eval_chain, hselect]
      exact hw
    rw [execute, Expr.eval, hindexed]
    rfl
  · have hres : env.root.resolve path ≠ .error k := by
      intro hres
      cases hmap.symm.trans hres
    refine .inr ⟨k, hk, ?_, hfail.resolve_left hres⟩
    have hindexed : ∀ r, (Expr.indexed (.chain env.scopeVariable path) key).eval
        (env.bindings (env.root.sample keys) s.here) r = .error (.noSuchKey k) := by
      intro r
      rw [Expr.indexed, Expr.eval, eval_chain, hselect]
      rfl
    rw [execute, Expr.eval, hindexed]
    rfl

/-- A comparison of values asks for no key. -/
theorem contained_onValues_ne_noSuchKey (hop : op ∈ Binary.comparisons) (w v : Value)
    (k : String) : contained (Expr.Binary.onValues op w v) ≠ .error (.noSuchKey k) := by
  intro h
  by_cases hcomp : op.isOrder = true → w.Comparable v
  · obtain ⟨b, hb⟩ := Binary.onValues_eq_ok hop hcomp
    rw [hb] at h
    cases h
  · obtain ⟨horder, hno⟩ := Classical.not_imp.1 hcomp
    rw [Binary.onValues_eq_error horder hno] at h
    cases h

/-- **A comparison with null** is at fault if it asks for an order with anything else. -/
theorem judge_null (hop : op ∈ Binary.comparisons) (v : Value) :
    judge (contained (Expr.Binary.onValues op .null v)) =
      if op.isOrder = true ∧ v.scale? ≠ some .nothing then
        .error (Fault.notComparable .null v).message
      else .ok () := by
  have hcomparable : Value.null.Comparable v ↔ v.scale? = some .nothing := by
    simp [Value.Comparable, Value.scale?]
  by_cases hcomp : op.isOrder = true → Value.null.Comparable v
  · obtain ⟨b, hb⟩ := Binary.onValues_eq_ok hop hcomp
    have hno : ¬ (op.isOrder = true ∧ v.scale? ≠ some .nothing) := by
      rintro ⟨horder, hscale⟩
      exact hscale (hcomparable.1 (hcomp horder))
    rw [hb, if_neg hno]
    rfl
  · obtain ⟨horder, hno⟩ := Classical.not_imp.1 hcomp
    have hyes : op.isOrder = true ∧ v.scale? ≠ some .nothing :=
      ⟨horder, fun hscale => hno (hcomparable.2 hscale)⟩
    rw [Binary.onValues_eq_error horder hno, if_pos hyes]
    rfl

/-- **A comparison with an index is one with null**, for the check: it does not add the key of the
index to the sample. -/
theorem verdict_indexed (hmap : env.root.resolve path = .ok (.map t))
    (hop : op ∈ Binary.comparisons) (hempty : key ≠ "") (hpath : key ∉ path)
    (hlen : path.dedup.length ≤ 16) (s : Seed) :
    env.verdict (.binary op (.indexed (.chain env.scopeVariable path) key) (.literal v)) s =
      if op.isOrder = true ∧ v.scale? ≠ some .nothing then
        .error (Fault.notComparable .null v).message
      else .ok () := by
  set e : Expr := .binary op (.indexed (.chain env.scopeVariable path) key) (.literal v)
  have hmiss : ∀ keys k u, env.execute e (env.root.sample keys) u = .error (.noSuchKey k) →
      k ∈ path := by
    intro keys k u hx
    rcases execute_indexed_cases hmap op key v keys u with ⟨w, -, hw⟩ | ⟨k', hk', hw, -⟩
    · exact absurd (hw.symm.trans hx) (contained_onValues_ne_noSuchKey hop w v k)
    · cases hw.symm.trans hx
      exact hk'
  have hconc := missed_lastTrial_eq_none hmiss hlen s
  -- the keys of the last sample are names of the chain, so the key of the index is not there
  have hkeys : (env.lastTrial e s).keys ⊆ path :=
    keys_subset_of_names hmiss keyLimit [] s (List.nil_subset _) _
      (List.getLast_mem (trials_ne_nil env e keyLimit [] s))
  have hlacks : ¬ (key = "" ∨ key ∈ (env.lastTrial e s).keys) :=
    not_or.2 ⟨hempty, fun hmem => hpath (hkeys hmem)⟩
  rw [verdict_of_conclusive hconc]
  rcases execute_indexed_cases hmap op key v (env.lastTrial e s).keys _ with
    ⟨w, hnull, hw⟩ | ⟨k, -, hw, hm, hn⟩
  · rw [hw, hnull hlacks]
    exact judge_null hop v
  · have hkey := mem_keys_of_conclusive hconc ((answer_lastTrial _ _ _).trans hw) hm
    exact absurd hkey hn

/-- **A comparison with a member is one at the type of the values of the map.** -/
theorem verdict_member (hmap : env.root.resolve path = .ok (.map t))
    (hop : op ∈ Binary.comparisons) (hlen : (path ++ [key]).dedup.length ≤ 16) (s : Seed) :
    env.verdict (.binary op (.member (.chain env.scopeVariable path) key) (.literal v)) s =
        .ok () ↔
      (op.isOrder = true → ∃ scale, t.scale? = some scale ∧ v.scale? = some scale) := by
  have hform : Expr.binary op (.member (.chain env.scopeVariable path) key) (.literal v) =
      op.ofComparands env.scopeVariable (.chain (path ++ [key])) (.literal v) := by
    rw [Expr.member_chain]
    rfl
  have hnames : (Comparand.names (.chain (path ++ [key])) ++ (Comparand.literal v).names) =
      path ++ [key] := by
    simp only [Comparand.names, List.append_nil]
  have hscale : (Comparand.chain (path ++ [key])).scaleOn env.root = .ok t.scale? := by
    rw [Comparand.scaleOn, Declaration.resolve_append path hmap]
    rfl
  rw [hform, verdict_ofComparands env hop (by rw [hnames]; exact hlen) s]
  constructor
  · rintro ⟨x, y, hx, hy, hboth⟩
    rw [hscale] at hx
    cases hx
    cases hy
    exact hboth
  · intro hboth
    exact ⟨_, _, hscale, rfl, hboth⟩

end Environment

open Compilation in
/-- **Two rules that differ in one read agree where the map holds the key**: on all data of the
declaration in which the maps that are read hold it. Only a sample without the key can tell them
apart: if the two agree on those, the one is compiled exactly if the other is, as far as the orders
in which the maps of the trials stand make no difference to either. -/
theorem lookups_agree_where_held {root : Declaration} {scope : String} {env : Environment}
    (henv : Environment.build root scope = .ok env) {c : Expr.Context} {m : Expr}
    (hmap : env.ReadsMap c m) {key : String} {rules : List Rule} {i j : Nat}
    {byMember byIndex : Rule} (hi : rules[i]? = some byMember) (hj : rules[j]? = some byIndex)
    (hmember : Expr.ofText? byMember.expression = some (c.fill (.member m key)))
    (hindex : Expr.ofText? byIndex.expression = some (c.fill (.indexed m key))) :
    (∀ v s, root.Admits v →
      (∀ inner t entries, c.Opens (env.bindings v s.here) s.next inner t →
        m.eval inner t.here = .ok (.map entries) →
        (Value.lookup? (.str key) entries).isSome = true) →
      env.execute (c.fill (.indexed m key)) v s = env.execute (c.fill (.member m key)) v s) ∧
    ((∀ keys s, key ∉ "" :: keys →
      env.execute (c.fill (.indexed m key)) (root.sample keys) s =
        env.execute (c.fill (.member m key)) (root.sample keys) s) →
      ∀ s t : Seed, env.verdict (c.fill (.member m key)) (s.item i) =
          env.verdict (c.fill (.member m key)) (t.item j) →
        ((∃ r, (ofRules root rules scope s).slots[i]? = some (some r)) ↔
          ∃ r, (ofRules root rules scope t).slots[j]? = some (some r))) := by
  obtain ⟨-, -, rfl⟩ := Environment.build_eq_ok henv
  constructor
  · intro v s hv hkey
    refine Environment.execute_fill_indexed fun inner t w hopen hw => ?_
    obtain ⟨d, hat⟩ := hmap v hv s inner t hopen w hw
    obtain ⟨fields, u, -, rfl⟩ := hat.isMap hv
    obtain ⟨x, hx⟩ := Option.isSome_iff_exists.1 (hkey inner t _ hopen hw)
    exact ⟨_, x, rfl, hx⟩
  · intro hlacking s t horder
    have hsame : ∀ u, env.verdict (c.fill (.indexed m key)) u =
        env.verdict (c.fill (.member m key)) u := by
      refine Environment.verdict_congr fun keys u => ?_
      by_cases hkey : key ∈ "" :: keys
      · refine Environment.execute_fill_indexed fun inner r w hopen hw => ?_
        obtain ⟨d, hat⟩ := hmap _ (Declaration.admits_sample keys env.root) u inner r hopen w hw
        exact Declaration.map_of_at_sample hat hkey
      · exact hlacking keys u hkey
    simp only [getElem?_slots_eq_some_iff henv hi hmember,
      getElem?_slots_eq_some_iff henv hj hindex, exists_and_left, exists_eq, and_true, hsame,
      horder]

/-- A read of an entry that is guarded by a test of it, for every map of a list:
`self.all(m, has(m.app) && _ < 'web')`. -/
def guarded : Expr.Context :=
  .quantified .all (.name "self") "m"
    (.andRight (.has (.name "m") "app") (.left .less .hole (.literal (.str "web"))))

/-- A map without the entry fails the test, whatever is read behind it. -/
theorem execute_guarded {fields : Fields Json} (h : Fields.get? "app" fields = none)
    (read : Expr) (s : Seed) :
    (Environment.mk "self" (.list (.map .string)) []).execute (guarded.fill read)
      (.arr [.obj fields]) s = .ok (.bool false) := by
  set data : Scope :=
    Environment.bindings ⟨"self", .list (.map .string), []⟩ (.arr [.obj fields]) s.here
  set item : Value :=
    .map (s.here.here.arrange (Declaration.convertValues .string fields s.here.here))
  have hno : item.hasMember "app" = false := by
    rw [Value.hasMember, Seed.lookup?_arrange, Declaration.lookup?_convertValues, h]
    rfl
  have htest : ∀ t, (Expr.has (.name "m") "app").eval (("m", item) :: data) t =
      .ok (.bool false) := by
    intro t
    rw [Expr.eval, Expr.eval, List.lookup_cons_self]
    simp only [bind, Except.bind, hno]
    rfl
  have hself : ∀ t, (Expr.name "self").eval data t = .ok (.list [item]) := fun _ => rfl
  rw [Environment.execute, guarded, Expr.Context.fill, Expr.eval, hself]
  simp only [bind, Except.bind, Expr.itemsOf, Expr.quantify, Seed.spread, Expr.allOf,
    Expr.Context.fill]
  rw [Expr.eval, htest]
  rfl

/-- The rule with either read. -/
def guardedRules : List Rule :=
  [⟨"self.all(m, has(m.app) && m.app < 'web')", ""⟩,
    ⟨"self.all(m, has(m.app) && m[\"app\"] < 'web')", ""⟩]

/-- **A guarded index compiles**: a sample without the key does not come to the read. -/
theorem guarded_index_compiles :
    ∃ r, (Compilation.ofRules (.list (.map .string)) guardedRules "self" .standard).slots[1]? =
      some (some r) := by
  have hscope : isIdentifier "self" = true := by decide +kernel
  have henv : Environment.build (.list (.map .string)) "self" =
      .ok ⟨"self", .list (.map .string), []⟩ := if_pos hscope
  have hi : guardedRules[0]? = some ⟨"self.all(m, has(m.app) && m.app < 'web')", ""⟩ := rfl
  have hj : guardedRules[1]? = some ⟨"self.all(m, has(m.app) && m[\"app\"] < 'web')", ""⟩ := rfl
  have hmember : Expr.ofText? "self.all(m, has(m.app) && m.app < 'web')" =
      some (guarded.fill (.member (.name "m") "app")) :=
    Expr.ofText?_of_scan [.ident "self", .mark ".", .ident "all", .mark "(", .ident "m", .mark ",",
      .ident "has", .mark "(", .ident "m", .mark ".", .ident "app", .mark ")", .mark "&&",
      .ident "m", .mark ".", .ident "app", .mark "<", .quoted "'web'".toList, .mark ")"]
      (by decide +kernel) rfl
  have hindex : Expr.ofText? "self.all(m, has(m.app) && m[\"app\"] < 'web')" =
      some (guarded.fill (.indexed (.name "m") "app")) :=
    Expr.ofText?_of_scan [.ident "self", .mark ".", .ident "all", .mark "(", .ident "m", .mark ",",
      .ident "has", .mark "(", .ident "m", .mark ".", .ident "app", .mark ")", .mark "&&",
      .ident "m", .mark "[", .quoted "\"app\"".toList, .mark "]", .mark "<",
      .quoted "'web'".toList, .mark ")"] (by decide +kernel) rfl
  have htypes : guarded.Types (Environment.declared? ⟨"self", .list (.map .string), []⟩)
      (Typing.bind _ "m" (some (.map .string))) := ⟨_, .item (.name rfl), rfl⟩
  have hmap : Environment.ReadsMap ⟨"self", .list (.map .string), []⟩ guarded (.name "m") :=
    Environment.readsMap_of_readsAt henv htypes (.name rfl)
  obtain ⟨-, hsame⟩ := lookups_agree_where_held henv hmap hi hj hmember hindex
  have hlacking : ∀ keys s, "app" ∉ "" :: keys → ∀ read : Expr,
      (Environment.mk "self" (.list (.map .string)) []).execute (guarded.fill read)
        (Declaration.sample keys (.list (.map .string))) s = .ok (.bool false) := by
    intro keys s hkey read
    obtain ⟨fields, hs, hget⟩ := Declaration.sample_map keys .string
    rw [Declaration.sample, hs]
    exact execute_guarded (by rw [hget, if_neg (by simpa using hkey)]) read s
  have hverdict : ∀ i ∈ [0, 1], (Environment.mk "self" (.list (.map .string)) []).verdict
      (guarded.fill (.member (.name "m") "app")) (Seed.standard.item i) = .ok () := by
    decide +kernel
  have hfirst : ∃ r, (Compilation.ofRules (.list (.map .string)) guardedRules "self"
      .standard).slots[0]? = some (some r) :=
    ⟨_, (Compilation.getElem?_slots_eq_some_iff henv hi hmember).2 ⟨hverdict 0 (by decide), rfl⟩⟩
  exact (hsame (fun keys s hkey =>
    (hlacking keys s hkey _).trans (hlacking keys s hkey _).symm) .standard .standard
      ((hverdict 0 (by decide)).trans (hverdict 1 (by decide)).symm)).1 hfirst

/-- **An order of an entry is rejected by an index and compiled as a member.** -/
theorem index_is_rejected :
    (∃ r, (Compilation.ofRules (.map .string)
      [⟨"self.app < 'web'", ""⟩, ⟨"self[\"app\"] < 'web'", ""⟩] "self" .standard).slots[0]? =
        some (some r)) ∧
    CompileError.rejected 1 ⟨"self[\"app\"] < 'web'", ""⟩
        (.diagnosed (Fault.notComparable .null (.str "web")).message) ∈
      (Compilation.ofRules (.map .string)
        [⟨"self.app < 'web'", ""⟩, ⟨"self[\"app\"] < 'web'", ""⟩] "self" .standard).errors := by
  have hscope : isIdentifier "self" = true := by decide +kernel
  have henv : Environment.build (.map .string) "self" = .ok ⟨"self", .map .string, []⟩ :=
    if_pos hscope
  have hmember : Expr.ofText? (Rule.mk "self.app < 'web'" "").expression =
      some (.binary .less (.member (.name "self") "app") (.literal (.str "web"))) :=
    Expr.ofText?_of_scan [.ident "self", .mark ".", .ident "app", .mark "<",
      .quoted "'web'".toList] (by decide +kernel) rfl
  have hindex : Expr.ofText? (Rule.mk "self[\"app\"] < 'web'" "").expression =
      some (.binary .less (.indexed (.name "self") "app") (.literal (.str "web"))) :=
    Expr.ofText?_of_scan [.ident "self", .mark "[", .quoted "\"app\"".toList, .mark "]", .mark "<",
      .quoted "'web'".toList] (by decide +kernel) rfl
  have hmap : (Environment.mk "self" (.map .string) []).root.resolve [] = .ok (.map .string) := rfl
  constructor
  · refine ⟨_, (Compilation.getElem?_slots_eq_some_iff henv rfl hmember).2 ⟨?_, rfl⟩⟩
    exact (Environment.verdict_member hmap (by decide) (by decide) _).2 fun _ => ⟨.text, rfl, rfl⟩
  · refine Compilation.mem_errors_of_verdict henv rfl hindex ?_
    exact (Environment.verdict_indexed hmap (by decide) (by decide) (by decide) (by decide) _).trans
      (if_pos ⟨rfl, by decide⟩)

end SchemaRules
