import Selectors.Document.Load
import Selectors.Proofs.JsonTexts

/-!
# Documents are read as they were written

What is written for a document is read as that document (`documents_read_as_written`). For each kind
of record, `readsAs_toJson` says that its tree is plain and that its reader gives the record back
from as many levels as the tree has; where records nest, the proof follows their nesting. A
predicate among the arguments of a predicate is written without a tag, and no reader of tagged
records takes it (`Term.decode?_untagged`, `Reference.decode?_untagged`).
-/

namespace Selectors

/-! ## What a tree is read as -/

/-- The tree is plain, and is read as the value by a reader that may take as many levels as the tree
has. -/
structure ReadsAs {α : Type} (decode? : Nat → Json → Option α) (j : Json) (a : α) : Prop where
  isPlain : j.isPlain
  decode?_eq : ∀ levels, j.depth ≤ levels → decode? levels j = some a

structure ItemsReadAs {α : Type} (decode? : Nat → Json → Option α) (js : List Json) (as : List α) :
    Prop where
  arePlain : Json.areItemsPlain js
  mapM_eq : ∀ levels, Json.depthOfItems js ≤ levels → js.mapM (decode? levels) = some as

theorem Json.depthOfMembers_append (ms ns : List (String × Json)) :
    depthOfMembers (ms ++ ns) = max (depthOfMembers ms) (depthOfMembers ns) := by
  induction ms with
  | nil => simp [depthOfMembers]
  | cons m ms ih => simp [depthOfMembers, ih, Nat.max_assoc]

section
variable {α : Type} {decode? : Nat → Json → Option α}

theorem ReadsAs.ofMembers {members : List (String × Json)} {a : α}
    (hplain : Json.areMembersPlain members)
    (h : ∀ levels, Json.depthOfMembers members ≤ levels →
      decode? (levels + 1) (.obj members) = some a) :
    ReadsAs decode? (.obj members) a where
  isPlain := hplain
  decode?_eq
    | 0, hlevels => nomatch hlevels
    | levels + 1, hlevels => h levels (Nat.le_of_succ_le_succ hlevels)

theorem ItemsReadAs.nil : ItemsReadAs decode? [] [] := ⟨rfl, fun _ _ => rfl⟩

theorem ItemsReadAs.cons {j : Json} {js : List Json} {a : α} {as : List α}
    (h : ReadsAs decode? j a) (hs : ItemsReadAs decode? js as) :
    ItemsReadAs decode? (j :: js) (a :: as) where
  arePlain := by simp [Json.areItemsPlain, h.isPlain, hs.arePlain]
  mapM_eq levels hlevels := by
    obtain ⟨hj, hjs⟩ : j.depth ≤ levels ∧ Json.depthOfItems js ≤ levels := Nat.max_le.1 hlevels
    simp [h.decode?_eq levels hj, hs.mapM_eq levels hjs]

theorem ItemsReadAs.map {toJson : α → Json} (h : ∀ a, ReadsAs decode? (toJson a) a) :
    ∀ as : List α, ItemsReadAs decode? (as.map toJson) as
  | [] => .nil
  | a :: as => .cons (h a) (map h as)

/-- A record whose last field holds arguments, which are read with one level less. -/
theorem ReadsAs.ofArgs {β : Type} {decodeArg? : Nat → Json → Option β}
    (members : List (String × Json)) (hplain : Json.areMembersPlain members)
    {js : List Json} {as : List β} (hargs : ItemsReadAs decodeArg? js as) {a : α}
    (h : ∀ levels, js.mapM (decodeArg? levels) = some as →
      decode? (levels + 1) (.obj (members ++ [("args", .arr js)])) = some a) :
    ReadsAs decode? (.obj (members ++ [("args", .arr js)])) a := by
  refine .ofMembers ?_ fun levels hlevels => h levels (hargs.mapM_eq levels ?_)
  · rw [Json.areMembersPlain_eq_all] at hplain ⊢
    rw [List.all_append, hplain]
    simp [Json.isPlain, hargs.arePlain]
  · simp [Json.depthOfMembers_append, Json.depthOfMembers, Json.depth] at hlevels
    omega

end

/-! ## Facts -/

mutual
theorem FactType.readsAs_toJson : ∀ type : FactType, ReadsAs FactType.decode? type.toJson type
  | .var _ => .ofMembers rfl fun _ _ => rfl
  | .constructor name args => by
    refine .ofArgs [("kind", .str "constructor"), ("name", .str name)] rfl
      (FactType.itemsReadAs_toJsons args) fun levels hargs => ?_
    change ((FactType.toJsons args).mapM (FactType.decode? levels) >>=
      fun args => some (FactType.constructor name args)) = _
    rw [hargs]
    rfl

theorem FactType.itemsReadAs_toJsons : ∀ types : List FactType,
    ItemsReadAs FactType.decode? (FactType.toJsons types) types
  | [] => .nil
  | type :: types => .cons (FactType.readsAs_toJson type) (FactType.itemsReadAs_toJsons types)
end

mutual
theorem Term.readsAs_toJson : ∀ t : Term, ReadsAs Term.decode? t.toJson t
  | .var _ => .ofMembers rfl fun _ _ => rfl
  | .app operator name args => by
    refine .ofArgs [("kind", .str operator.tag), ("name", .str name)] rfl
      (Term.itemsReadAs_toJsons args) fun levels hargs => ?_
    have hdecode : Term.decode? (levels + 1) (Term.app operator name args).toJson =
        (Term.toJsons args).mapM (Term.decode? levels) >>=
          fun args => some (.app operator name args) := by
      cases operator <;> rfl
    exact hdecode.trans (by rw [hargs]; rfl)

theorem Term.itemsReadAs_toJsons : ∀ ts : List Term,
    ItemsReadAs Term.decode? (Term.toJsons ts) ts
  | [] => .nil
  | t :: ts => .cons (Term.readsAs_toJson t) (Term.itemsReadAs_toJsons ts)
end

/-- A predicate without a tag is not read as a term. -/
theorem Term.decode?_untagged (levels : Nat) (name : String) (args : List Json) :
    Term.decode? levels (.obj [("name", .str name), ("args", .arr args)]) = none := by
  cases levels <;> rfl

mutual
theorem Argument.readsAs_toJson : ∀ arg : Argument, ReadsAs Argument.decode? arg.toJson arg
  | .term t => by
    have ht := Term.readsAs_toJson t
    refine ⟨ht.isPlain, fun levels hlevels => ?_⟩
    have hterm := ht.decode?_eq levels hlevels
    cases levels with
    | zero => cases hterm
    | succ levels => rw [Argument.toJson, Argument.decode?, hterm]
  | .pred name args => by
    refine .ofArgs [("name", .str name)] rfl (Argument.itemsReadAs_toJsons args)
      fun levels hargs => ?_
    rw [Argument.decode?]
    simp only [List.cons_append, List.nil_append, Term.decode?_untagged]
    change ((Argument.toJsons args).mapM (Argument.decode? levels) >>=
      fun args => some (Argument.pred name args)) = _
    rw [hargs]
    rfl

theorem Argument.itemsReadAs_toJsons : ∀ args : List Argument,
    ItemsReadAs Argument.decode? (Argument.toJsons args) args
  | [] => .nil
  | arg :: args => .cons (Argument.readsAs_toJson arg) (Argument.itemsReadAs_toJsons args)
end

theorem Statement.readsAs_toJson : ∀ s : Statement, ReadsAs Statement.decode? s.toJson s
  | .decl type name => by
    have htype := FactType.readsAs_toJson type
    refine .ofMembers (by simp [Json.areMembersPlain, Json.isPlain, htype.isPlain])
      fun levels hlevels => ?_
    have hdepth : type.toJson.depth ≤ levels + 1 := by
      simp [Json.depthOfMembers] at hlevels
      omega
    change (FactType.decode? (levels + 1) type.toJson >>= fun type =>
      some (Statement.decl type name)) = _
    rw [htype.decode?_eq _ hdepth]
    rfl
  | .bind name t => by
    have ht := Term.readsAs_toJson t
    refine .ofMembers (by simp [Json.areMembersPlain, Json.isPlain, ht.isPlain])
      fun levels hlevels => ?_
    have hdepth : t.toJson.depth ≤ levels + 1 := by
      simp [Json.depthOfMembers] at hlevels
      omega
    change (Term.decode? (levels + 1) t.toJson >>= fun t => some (Statement.bind name t)) = _
    rw [ht.decode?_eq _ hdepth]
    rfl
  | .pred ⟨name, args⟩ => by
    have hargs := ItemsReadAs.map Argument.readsAs_toJson args
    refine .ofMembers (by simp [Json.areMembersPlain, Json.isPlain, hargs.arePlain])
      fun levels hlevels => ?_
    have hdepth : Json.depthOfItems (args.map Argument.toJson) ≤ levels + 1 := by
      simp [Json.depthOfMembers, Json.depth] at hlevels
      omega
    change ((args.map Argument.toJson).mapM (Argument.decode? (levels + 1)) >>= fun args =>
      some (Statement.pred ⟨name, args⟩)) = _
    rw [hargs.mapM_eq _ hdepth]
    rfl

/-! ## Selectors -/

@[simp] theorem Reference.isPlain_toJson (r : Reference) : r.toJson.isPlain := by
  cases r <;> rfl

@[simp] theorem Reference.decode?_toJson (r : Reference) : Reference.decode? r.toJson = some r := by
  cases r <;> rfl

theorem Declaration.readsAs_toJson (d : Declaration) :
    ReadsAs (fun _ => Declaration.decode?) d.toJson d := by
  obtain ⟨type, ref⟩ := d
  cases ref <;> exact .ofMembers rfl fun _ _ => rfl

mutual
theorem Expr.readsAs_toJson : ∀ e : Expr, ReadsAs Expr.decode? e.toJson e
  | .ref r => by cases r <;> exact .ofMembers rfl fun _ _ => rfl
  | .app operator name args => by
    refine .ofArgs [("kind", .str (Expr.operatorTag operator)), ("name", .str name)] rfl
      (Expr.itemsReadAs_toJsons args) fun levels hargs => ?_
    have hdecode : Expr.decode? (levels + 1) (Expr.app operator name args).toJson =
        (Expr.toJsons args).mapM (Expr.decode? levels) >>=
          fun args => some (.app operator name args) := by
      obtain _ | _ | _ := operator <;> rfl
    exact hdecode.trans (by rw [hargs]; rfl)

theorem Expr.itemsReadAs_toJsons : ∀ es : List Expr,
    ItemsReadAs Expr.decode? (Expr.toJsons es) es
  | [] => .nil
  | e :: es => .cons (Expr.readsAs_toJson e) (Expr.itemsReadAs_toJsons es)
end

/-- A predicate without a tag is not read as a reference. -/
theorem Reference.decode?_untagged (name : String) (args : List Json) :
    Reference.decode? (.obj [("name", .str name), ("args", .arr args)]) = none := rfl

mutual
theorem PatternArg.readsAs_toJson : ∀ arg : PatternArg, ReadsAs PatternArg.decode? arg.toJson arg
  | .ref r => by cases r <;> exact .ofMembers rfl fun _ _ => rfl
  | .pred name args => by
    refine .ofArgs [("name", .str name)] rfl (PatternArg.itemsReadAs_toJsons args)
      fun levels hargs => ?_
    rw [PatternArg.decode?]
    simp only [List.cons_append, List.nil_append, Reference.decode?_untagged]
    change ((PatternArg.toJsons args).mapM (PatternArg.decode? levels) >>=
      fun args => some (PatternArg.pred name args)) = _
    rw [hargs]
    rfl

theorem PatternArg.itemsReadAs_toJsons : ∀ args : List PatternArg,
    ItemsReadAs PatternArg.decode? (PatternArg.toJsons args) args
  | [] => .nil
  | arg :: args => .cons (PatternArg.readsAs_toJson arg) (PatternArg.itemsReadAs_toJsons args)
end

theorem Constraint.readsAs_toJson : ∀ c : Constraint, ReadsAs Constraint.decode? c.toJson c
  | .bind ref e => by
    have he := Expr.readsAs_toJson e
    refine .ofMembers (by simp [Json.areMembersPlain, Json.isPlain, he.isPlain])
      fun levels hlevels => ?_
    have hdepth : e.toJson.depth ≤ levels + 1 := by
      simp [Json.depthOfMembers] at hlevels
      omega
    change (Reference.decode? ref.toJson >>= fun ref => Expr.decode? (levels + 1) e.toJson >>=
      fun e => some (Constraint.bind ref e)) = _
    rw [Reference.decode?_toJson, he.decode?_eq _ hdepth]
    rfl
  | .pred name args => by
    have hargs := ItemsReadAs.map PatternArg.readsAs_toJson args
    refine .ofMembers (by simp [Json.areMembersPlain, Json.isPlain, hargs.arePlain])
      fun levels hlevels => ?_
    have hdepth : Json.depthOfItems (args.map PatternArg.toJson) ≤ levels + 1 := by
      simp [Json.depthOfMembers, Json.depth] at hlevels
      omega
    change ((args.map PatternArg.toJson).mapM (PatternArg.decode? (levels + 1)) >>= fun args =>
      some (Constraint.pred name args)) = _
    rw [hargs.mapM_eq _ hdepth]
    rfl

theorem Header.readsAs_toJson : ∀ h : Header, ReadsAs Header.decode? h.toJson h
  | .selector ⟨head, withDecls, constraints⟩ => by
    have hhead := ItemsReadAs.map Declaration.readsAs_toJson head
    have hwith := ItemsReadAs.map Declaration.readsAs_toJson withDecls
    have hconstraints := ItemsReadAs.map Constraint.readsAs_toJson constraints
    refine .ofMembers (by simp [Json.areMembersPlain, Json.isPlain, hhead.arePlain,
      hwith.arePlain, hconstraints.arePlain]) fun levels hlevels => ?_
    have hdepth : Json.depthOfItems (constraints.map Constraint.toJson) ≤ levels + 1 := by
      simp [Json.depthOfMembers, Json.depth] at hlevels
      omega
    change ((head.map Declaration.toJson).mapM Declaration.decode? >>= fun head =>
      (withDecls.map Declaration.toJson).mapM Declaration.decode? >>= fun withDecls =>
      (constraints.map Constraint.toJson).mapM (Constraint.decode? (levels + 1)) >>=
      fun constraints => some (Header.selector ⟨head, withDecls, constraints⟩)) = _
    rw [hhead.mapM_eq _ (Nat.le_refl _), hwith.mapM_eq _ (Nat.le_refl _),
      hconstraints.mapM_eq _ hdepth]
    rfl
  | .space _ => .ofMembers rfl fun _ _ => rfl

/-! ## Programs -/

section
variable {α : Type} {decode? : Nat → Json → Option α} {key : String}

theorem ReadsAs.readTagged {j : Json} {a : α} (h : ReadsAs decode? j a)
    (htag : j.isTaggedByName key) {outer : Nat} (hdepth : j.depth + outer ≤ maxNesting) :
    j.readTagged key decode? outer = some a := by
  rw [Json.readTagged, if_pos htag, Json.readWhole,
    if_pos (by simp [Json.isLegible_of_isPlain h.isPlain, hdepth])]
  exact h.decode?_eq _ (by omega)

theorem mapM_readTagged {toJson : α → Json} (h : ∀ a, ReadsAs decode? (toJson a) a)
    (htag : ∀ a, (toJson a).isTaggedByName key) (outer : Nat) :
    ∀ as : List α, Json.depthOfItems (as.map toJson) + outer ≤ maxNesting →
      (as.map toJson).mapM (Json.readTagged key decode? outer) = some as
  | [], _ => rfl
  | a :: as, hdepth => by
    simp only [List.map_cons, Json.depthOfItems] at hdepth
    rw [List.map_cons, List.mapM_cons, (h a).readTagged (htag a) (by omega),
      mapM_readTagged h htag outer as (by omega)]
    rfl

end

theorem FactProgram.isPlain_toJson (p : FactProgram) : p.toJson.isPlain := by
  have hstatements := ItemsReadAs.map Statement.readsAs_toJson p.statements
  simp [toJson, Json.isPlain, Json.areMembersPlain, hstatements.arePlain]

theorem FactProgram.ofJson?_toJson (p : FactProgram) (hdepth : p.toJson.depth ≤ maxNesting) :
    ofJson? p.toJson = some p := by
  have hstatements : (p.statements.map Statement.toJson).mapM (Statement.ofJson? · 2) =
      some p.statements := by
    refine mapM_readTagged Statement.readsAs_toJson (fun s => by cases s <;> rfl) 2 _ ?_
    simp [toJson, Json.depth, Json.depthOfMembers] at hdepth
    omega
  change ((p.statements.map Statement.toJson).mapM (Statement.ofJson? · 2) >>=
    fun statements => some (FactProgram.mk statements)) = _
  rw [hstatements]
  rfl

theorem StyleProgram.isPlain_toJson (p : StyleProgram) : p.toJson.isPlain := by
  have hheaders := ItemsReadAs.map Header.readsAs_toJson p.headers
  simp [toJson, Json.isPlain, Json.areMembersPlain, hheaders.arePlain]

theorem StyleProgram.ofJson?_toJson (p : StyleProgram) (hdepth : p.toJson.depth ≤ maxNesting) :
    ofJson? p.toJson = some p := by
  have hheaders : (p.headers.map Header.toJson).mapM (Header.ofJson? · 2) = some p.headers := by
    refine mapM_readTagged Header.readsAs_toJson (fun h => by cases h <;> rfl) 2 _ ?_
    simp [toJson, Json.depth, Json.depthOfMembers] at hdepth
    omega
  change ((p.headers.map Header.toJson).mapM (Header.ofJson? · 2) >>=
    fun headers => some (StyleProgram.mk headers)) = _
  rw [hheaders]
  rfl

/-! ## Vocabularies and substitutions -/

theorem Vocabulary.readsAs_typeToJson (name : String) :
    ReadsAs (fun _ => typeOfJson?) (typeToJson name) name :=
  .ofMembers rfl fun _ _ => rfl

theorem SubtypePair.readsAs_toJson (p : SubtypePair) :
    ReadsAs (fun _ => SubtypePair.ofJson?) p.toJson p :=
  .ofMembers rfl fun _ _ => rfl

theorem Vocabulary.readsAs_toJson (v : Vocabulary) :
    ReadsAs (fun _ => Vocabulary.ofJson?) v.toJson v := by
  have htypes := ItemsReadAs.map readsAs_typeToJson v.types
  have hsubtypes := ItemsReadAs.map SubtypePair.readsAs_toJson v.subtypes
  refine .ofMembers (by simp [Json.areMembersPlain, Json.isPlain, htypes.arePlain,
    hsubtypes.arePlain]) fun _ _ => ?_
  change ((v.types.map typeToJson).mapM typeOfJson? >>= fun types =>
    (v.subtypes.map SubtypePair.toJson).mapM SubtypePair.ofJson? >>= fun subtypes =>
    some (Vocabulary.mk types subtypes)) = _
  rw [htypes.mapM_eq _ (Nat.le_refl _), hsubtypes.mapM_eq _ (Nat.le_refl _)]
  rfl

theorem NameTable.ofList_entries {α : Type} (t : NameTable α) : .ofList t.entries = t := by
  refine NameTable.ext_get? fun name => ?_
  rw [ofList, get?_foldl_insert name t.sorted, get?_empty, Option.or_none]
  rfl

theorem Substitution.isPlain_toJson (s : Substitution) : s.toJson.isPlain := by
  rw [toJson, Json.isPlain, Json.areMembersPlain_eq_all, List.all_map]
  exact List.all_eq_true.2 fun _ _ => rfl

theorem Substitution.mapM_text? (entries : List (String × String)) :
    (entries.map fun entry => (entry.1, Json.str entry.2)).mapM
      (fun member => return (member.1, ← member.2.text?)) = some entries := by
  induction entries with
  | nil => rfl
  | cons entry entries ih =>
    rw [List.map_cons, List.mapM_cons, ih]
    rfl

theorem Substitution.ofJson?_toJson (s : Substitution) : ofJson? s.toJson = some s := by
  change ((s.entries.map fun entry => (entry.1, Json.str entry.2)).mapM
    (fun member => return (member.1, ← member.2.text?)) >>= fun bindings =>
      some (NameTable.ofList bindings)) = _
  rw [mapM_text? s.entries]
  exact congrArg some s.ofList_entries

/-! ## Settings -/

theorem NameFilter.isPlain_toJson (f : NameFilter) : f.toJson.isPlain := by
  cases f with
  | all => rfl
  | only names =>
    rw [toJson, Json.isPlain, Json.areItemsPlain_eq_all, List.all_map]
    exact List.all_eq_true.2 fun _ _ => rfl

theorem NameFilter.decode_toJson (f : NameFilter) : decode f.toJson = .ok f := by
  cases f with
  | all => rfl
  | only names =>
    have hnames : (names.map Json.str).mapM Json.text? = some names := by
      induction names with
      | nil => rfl
      | cons name names ih =>
        rw [List.map_cons, List.mapM_cons, ih]
        rfl
    rw [toJson, decode, hnames]
    rfl

theorem NameFilter.depth_toJson_le (f : NameFilter) : f.toJson.depth ≤ 1 := by
  cases f with
  | all => exact Nat.zero_le _
  | only names =>
    induction names with
    | nil => exact Nat.le_refl _
    | cons name names ih => simpa [toJson, Json.depth, Json.depthOfItems] using ih

theorem NameFilter.ofJson_toJson (f : NameFilter) (outer : Nat) (h : outer < maxNesting) :
    ofJson f.toJson outer = .ok f := by
  have hdepth := f.depth_toJson_le
  have hwhole : f.toJson.readWhole (fun _ => some) outer = some f.toJson :=
    if_pos (by simp [Json.isLegible_of_isPlain f.isPlain_toJson]; omega)
  rw [ofJson, hwhole]
  exact f.decode_toJson

theorem Admission.isPlain_toJson (a : Admission) : a.toJson.isPlain := by
  simp [toJson, Json.isPlain, Json.areMembersPlain, NameFilter.isPlain_toJson]

theorem Admission.ofJson_toJson (a : Admission) (outer : Nat) (h : outer + 1 < maxNesting) :
    ofJson a.toJson outer = .ok a := by
  simp [ofJson, toJson, Json.readClosed, readMembers, fieldNames, set,
    NameFilter.ofJson_toJson _ _ h]
  rfl

theorem Settings.isPlain_toJson (s : Settings) : s.toJson.isPlain := by
  simp [toJson, Json.isPlain, Json.areMembersPlain, Admission.isPlain_toJson]

theorem TypePolicy.ofJson?_name (p : TypePolicy) : ofJson? (.str p.name) = some p := by
  cases p <;> rfl

theorem Settings.ofJson_toJson (s : Settings) : ofJson s.toJson = .ok s := by
  have hadmission : Admission.ofJson s.admission.toJson 1 = .ok s.admission :=
    s.admission.ofJson_toJson 1 (by decide)
  simp [ofJson, toJson, Json.readClosed, readMembers, fieldNames, set, jsonReaders,
    TypePolicy.ofJson?_name, Json.bool?, hadmission, ReadError.orMalformed]
  rfl

/-! ## Texts -/

section
variable {α : Type} {ofJson : Json → Except ReadError α} {j : Json} {a : α}

theorem readJsonText_compact (hplain : j.isPlain) (h : ofJson j = .ok a) :
    readJsonText ofJson j.compact = .ok a := by
  rw [readJsonText, JsonText.read_compact hplain, h]
  rfl

theorem loadJson_compact {what : String} (hplain : j.isPlain) (h : ofJson j = .ok a) :
    loadJson what ofJson j.compact = .ok a := by
  rw [loadJson, readJsonText_compact hplain h]
  rfl

end

/-- What is written for a document is read as that document, from its tree and from its text: a
vocabulary, a fact program or a style program within the allowed nesting, settings, an admission, a
name filter, and a substitution. -/
theorem documents_read_as_written :
    (∀ v : Vocabulary,
      Vocabulary.ofJson? v.toJson = some v ∧ Vocabulary.load v.toJson.compact = .ok v) ∧
    (∀ p : FactProgram, p.toJson.depth ≤ maxNesting →
      FactProgram.ofJson? p.toJson = some p ∧ FactProgram.load p.toJson.compact = .ok p) ∧
    (∀ p : StyleProgram, p.toJson.depth ≤ maxNesting →
      StyleProgram.ofJson? p.toJson = some p ∧ StyleProgram.load p.toJson.compact = .ok p) ∧
    (∀ s : Settings,
      Settings.ofJson s.toJson = .ok s ∧ readJsonText Settings.ofJson s.toJson.compact = .ok s) ∧
    (∀ a : Admission,
      Admission.ofJson a.toJson = .ok a ∧
        readJsonText (Admission.ofJson ·) a.toJson.compact = .ok a) ∧
    (∀ f : NameFilter,
      NameFilter.ofJson f.toJson = .ok f ∧
        readJsonText (NameFilter.ofJson ·) f.toJson.compact = .ok f) ∧
    ∀ s : Substitution,
      Substitution.ofJson? s.toJson = some s ∧
        readJsonText (fun j => ReadError.orMalformed (Substitution.ofJson? j))
          s.toJson.compact = .ok s := by
  refine ⟨fun v => ?_, fun p hdepth => ?_, fun p hdepth => ?_, fun s => ?_, fun a => ?_,
    fun f => ?_, fun s => ?_⟩
  · have htree := v.readsAs_toJson.decode?_eq _ (Nat.le_refl _)
    exact ⟨htree, loadJson_compact v.readsAs_toJson.isPlain (by rw [htree]; rfl)⟩
  · have htree := p.ofJson?_toJson hdepth
    exact ⟨htree, loadJson_compact p.isPlain_toJson (by rw [htree]; rfl)⟩
  · have htree := p.ofJson?_toJson hdepth
    exact ⟨htree, loadJson_compact p.isPlain_toJson (by rw [htree]; rfl)⟩
  · exact ⟨s.ofJson_toJson, readJsonText_compact s.isPlain_toJson s.ofJson_toJson⟩
  · have htree := a.ofJson_toJson 0 (by decide)
    exact ⟨htree, readJsonText_compact a.isPlain_toJson htree⟩
  · have htree := f.ofJson_toJson 0 (by decide)
    exact ⟨htree, readJsonText_compact f.isPlain_toJson htree⟩
  · exact ⟨s.ofJson?_toJson, readJsonText_compact s.isPlain_toJson (by rw [s.ofJson?_toJson]; rfl)⟩

/-- Facts whose names are tags, keys, a star and characters that a text escapes. -/
def oddlyNamedFacts : FactProgram :=
  ⟨[.decl (.constructor "kind" [.var "*"]) "\"",
    .bind "é\n" (.app .function "var" [.app .constructor "apply_func" [.var "name"]]),
    .pred ⟨"args", [.pred "kind" [.term (.var "origin"), .pred "*" []],
      .term (.app .constructor "\\" [])]⟩]⟩

def oddlyNamedStyle : StyleProgram :=
  ⟨[.selector ⟨[⟨"selector", .variable "*"⟩], [⟨"ty", .fact "id"⟩],
      [.bind (.variable "*")
          (.app none "kind" [.ref (.fact "origin"), .app (some .function) "" []]),
        .pred "pred" [.pred "origin" [.ref (.fact "pattern")], .ref (.variable "*")]]⟩,
    .space "namespace"]⟩

theorem documents_read_as_written_oddlyNamed :
    oddlyNamedFacts.toJson.depth ≤ maxNesting ∧ oddlyNamedStyle.toJson.depth ≤ maxNesting ∧
      FactProgram.load oddlyNamedFacts.toJson.compact = .ok oddlyNamedFacts ∧
      StyleProgram.load oddlyNamedStyle.toJson.compact = .ok oddlyNamedStyle := by
  obtain ⟨-, hfacts, hstyle, -⟩ := documents_read_as_written
  have hfactsDepth : oddlyNamedFacts.toJson.depth ≤ maxNesting := by decide
  have hstyleDepth : oddlyNamedStyle.toJson.depth ≤ maxNesting := by decide
  exact ⟨hfactsDepth, hstyleDepth, (hfacts _ hfactsDepth).2, (hstyle _ hstyleDepth).2⟩

end Selectors
