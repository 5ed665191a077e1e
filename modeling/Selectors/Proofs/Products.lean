import Mathlib.Data.List.Perm.Basic
import Selectors.Proofs.Joins

/-!
# The join as a product

Lists of substitutions form a monoid under the product, in which the list of the empty substitution
alone is the unit (`Substitution.product_assoc`). It is commutative up to order where no two
bindings conflict (`Substitution.product_comm_perm`). What declared patterns join to is the product
of what each of them binds, so that patterns can be joined in parts (`joined_append`), problems and
all (`joinDeclarations_composes`).
-/

namespace Selectors

/-! ## Products of lists -/

namespace Substitution

@[simp] theorem empty_combine (s : Substitution) : combine .empty s = s :=
  NameTable.ext_get? fun v => by rw [get?_combine, NameTable.get?_empty, Option.or_none]

@[simp] theorem combine_empty (s : Substitution) : s.combine .empty = s :=
  NameTable.ext_get? fun v => by rw [get?_combine, NameTable.get?_empty, Option.none_or]

/-- The last of three bindings of a variable counts, whichever two are combined first. -/
theorem combine_assoc (s t u : Substitution) : (s.combine t).combine u = s.combine (t.combine u) :=
  NameTable.ext_get? fun v => by simp only [get?_combine, Option.or_assoc]

@[simp] theorem empty_product (ts : List Substitution) : product [.empty] ts = ts := by
  rw [product, List.flatMap_singleton]
  exact (List.map_congr_left fun t _ => empty_combine t).trans (List.map_id' ts)

@[simp] theorem product_empty (ss : List Substitution) : product ss [.empty] = ss := by
  simp only [product, List.map_singleton, combine_empty]
  exact List.flatMap_singleton' ss

theorem product_assoc (ss ts us : List Substitution) :
    product (product ss ts) us = product ss (product ts us) := by
  simp only [product, List.flatMap_assoc]
  refine List.flatMap_congr fun s _ => ?_
  calc (ts.map s.combine).flatMap (fun st => us.map st.combine)
      = ts.flatMap fun t => us.map (s.combine t).combine := List.flatMap_map ..
    _ = ts.flatMap fun t => (us.map t.combine).map s.combine := by
        refine List.flatMap_congr fun t _ => ?_
        rw [List.map_map]
        exact List.map_congr_left fun u _ => combine_assoc s t u
    _ = (ts.flatMap fun t => us.map t.combine).map s.combine := List.map_flatMap.symm

theorem product_perm {ss ss' ts ts' : List Substitution} (hs : ss.Perm ss') (ht : ts.Perm ts') :
    (product ss ts).Perm (product ss' ts') :=
  hs.flatMap fun s _ => ht.map s.combine

theorem combine_comm {s t : Substitution} (h : ∀ v, s.get? v = none ∨ t.get? v = none) :
    s.combine t = t.combine s := by
  refine NameTable.ext_get? fun v => ?_
  rw [get?_combine, get?_combine]
  rcases h v with hv | hv <;> rw [hv, Option.or_none, Option.none_or]

/-- Where each two can be combined in either order, the products of the lists are permutations. -/
theorem product_comm_perm {ss ts : List Substitution}
    (h : ∀ s ∈ ss, ∀ t ∈ ts, s.combine t = t.combine s) : (product ss ts).Perm (product ts ss) := by
  induction ss with
  | nil => simp [product]
  | cons s ss ih =>
    obtain ⟨hs, hss⟩ := List.forall_mem_cons.1 h
    have hrow : ts.map s.combine = ts.map fun t => t.combine s := List.map_congr_left hs
    rw [product, List.flatMap_cons, hrow]
    exact ((ih hss).append_left _).trans (List.map_append_flatMap_perm ts _ _)

end Substitution

/-! ## Joining in parts -/

variable {accepts : TypeAcceptance} {filter : NameFilter} {facts : FactProgram}

theorem joinedFrom_eq_product (running : List Substitution) (ds : List Declaration) :
    joinedFrom accepts filter facts running ds =
      Substitution.product running (joined accepts filter facts ds) := by
  induction ds generalizing running with
  | nil => exact (Substitution.product_empty running).symm
  | cons d ds ih =>
    rw [joined, joinedFrom_cons, joinedFrom_cons, Substitution.empty_product, ih, ih,
      Substitution.product_assoc]

theorem joined_cons (d : Declaration) (ds : List Declaration) :
    joined accepts filter facts (d :: ds) =
      Substitution.product (d.bindings accepts filter facts) (joined accepts filter facts ds) := by
  rw [joined, joinedFrom_cons, Substitution.empty_product, joinedFrom_eq_product]

theorem joined_append (ds es : List Declaration) :
    joined accepts filter facts (ds ++ es) =
      Substitution.product (joined accepts filter facts ds) (joined accepts filter facts es) := by
  rw [joined, joinedFrom, List.foldl_append]
  exact joinedFrom_eq_product ..

/-- The product of lists of substitutions is associative, also where their bindings conflict, and
the list of the empty substitution alone is its unit. Joining two lists of declared patterns one
after the other meets the problem of the first, else that of the second, else gives the product of
what they join to, although it stops at a pattern without candidates. -/
theorem joinDeclarations_composes :
    (∀ ss ts us : List Substitution,
        Substitution.product (Substitution.product ss ts) us =
          Substitution.product ss (Substitution.product ts us)) ∧
      (∀ ss : List Substitution,
        Substitution.product [.empty] ss = ss ∧ Substitution.product ss [.empty] = ss) ∧
      ∀ (accepts : TypeAcceptance) (filter : NameFilter) (facts : FactProgram)
        (ds es : List Declaration),
        joinDeclarations accepts filter facts (ds ++ es) = do
          let first ← joinDeclarations accepts filter facts ds
          let second ← joinDeclarations accepts filter facts es
          return Substitution.product first second := by
  refine ⟨Substitution.product_assoc,
    fun ss => ⟨Substitution.empty_product ss, Substitution.product_empty ss⟩, ?_⟩
  intro accepts filter facts ds es
  rw [joinDeclarations_eq, joinDeclarations_eq, joinDeclarations_eq, joined_append]
  cases facts.typeVariable? with
  | none =>
    simp only [ite_self]
    rfl
  | some p => cases ds <;> cases es <;> rfl

end Selectors
