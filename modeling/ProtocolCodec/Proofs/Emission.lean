import ProtocolCodec.Emission
import ProtocolCodec.Proofs.FirstWins

/-!
# What a run emits

The blocks that a metamodel adds to a run are those of its admitted declarations: the first of each
type name that is neither excluded nor taken before. Everything a run writes is read off this list.
-/

namespace ProtocolCodec

/-- Excluded are the names in the set of exclusions. -/
theorem Settings.isExcluded_iff {settings : Settings} {typeName : String} :
    settings.isExcluded typeName = true ↔ typeName ∈ settings.excluded.names :=
  List.contains_iff_mem

theorem Settings.not_isExcluded_eq (settings : Settings) (typeName : String) :
    (!settings.isExcluded typeName) = decide (typeName ∉ settings.excluded.names) := by
  simp only [← isExcluded_iff, Bool.not_eq_true, Bool.decide_eq_false]

@[simp]
theorem Context.plan_name (context : Context) (declaration : Declaration) :
    (context.plan declaration).name = declaration.typeName := by
  cases declaration <;> rfl

namespace Run

/-- Whether a run can still emit a type name. -/
def isFree (run : Run) (typeName : String) : Bool :=
  !run.settings.isExcluded typeName && !run.registry.contains typeName

/-- The declarations that a run emits when it is given these in turn. -/
def admitted (run : Run) (declarations : List Declaration) : List Declaration :=
  keepFirst Declaration.typeName (declarations.filter fun d => run.isFree d.typeName)

variable (context : Context) (run : Run)

/-- A declaration that is not free leaves blocks and settings as they are. -/
theorem declare_of_not_free {declaration : Declaration}
    (h : run.isFree declaration.typeName = false) :
    (declare context run declaration).settings = run.settings ∧
      (declare context run declaration).blocks = run.blocks := by
  unfold declare
  split
  next => exact ⟨rfl, rfl⟩
  next hexcluded =>
    split
    next => exact ⟨rfl, rfl⟩
    next htaken =>
      rw [Bool.not_eq_true] at hexcluded htaken
      rw [isFree, hexcluded, htaken] at h
      contradiction

/-- A free declaration adds its block. -/
theorem declare_of_free {declaration : Declaration}
    (h : run.isFree declaration.typeName = true) :
    (declare context run declaration).settings = run.settings ∧
      (declare context run declaration).blocks =
        run.blocks ++ [.entity (context.plan declaration)] := by
  obtain ⟨hexcluded, htaken⟩ := Bool.and_eq_true_iff.mp h
  rw [Bool.not_eq_true'] at hexcluded htaken
  rw [declare, hexcluded, htaken]
  exact ⟨rfl, rfl⟩

/-- What is free depends only on the settings and the blocks of a run. -/
theorem isFree_congr {first second : Run} (hsettings : first.settings = second.settings)
    (hblocks : first.blocks = second.blocks) : first.isFree = second.isFree := by
  funext typeName
  simp only [isFree, registry, hsettings, hblocks]

/-- After a free declaration its own type name is taken and no other. -/
theorem isFree_declare_of_free {declaration : Declaration}
    (h : run.isFree declaration.typeName = true) (typeName : String) :
    (declare context run declaration).isFree typeName =
      (typeName != declaration.typeName && run.isFree typeName) := by
  obtain ⟨hsettings, hblocks⟩ := declare_of_free context run h
  have hregistry : (declare context run declaration).registry =
      run.registry ++ [declaration.typeName] := by
    simp [registry, hblocks, Block.name?]
  simp only [isFree, hsettings, hregistry, List.contains_append, List.contains_cons,
    List.contains_nil, Bool.or_false]
  cases run.registry.contains typeName <;> cases run.settings.isExcluded typeName <;>
    simp [bne]

/-- A run over a list of declarations adds the blocks of those admitted. -/
theorem blocks_foldl_declare (declarations : List Declaration) :
    (declarations.foldl (declare context) run).settings = run.settings ∧
      (declarations.foldl (declare context) run).blocks =
        run.blocks ++ (run.admitted declarations).map fun d => .entity (context.plan d) := by
  induction declarations generalizing run with
  | nil => simp [admitted, keepFirst, addAllFirst]
  | cons first rest ih =>
      rw [List.foldl_cons]
      obtain ⟨hsettings, hblocks⟩ := ih (declare context run first)
      rw [hsettings, hblocks]
      cases hfree : run.isFree first.typeName with
      | false =>
          -- nothing that admission depends on has changed
          obtain ⟨hsame, hkept⟩ := declare_of_not_free context run hfree
          have hadmitted : (declare context run first).admitted rest =
              run.admitted (first :: rest) := by
            simp only [admitted, isFree_congr hsame hkept, List.filter_cons, hfree,
              Bool.false_eq_true, if_false]
          rw [hsame, hkept, hadmitted]
          exact ⟨rfl, rfl⟩
      | true =>
          -- the type name is now taken: later declarations of it are passed over
          obtain ⟨hsame, hadded⟩ := declare_of_free context run hfree
          have hadmitted : run.admitted (first :: rest) =
              first :: (declare context run first).admitted rest := by
            simp only [admitted, List.filter_cons, hfree, if_true, keepFirst_cons, removeName,
              List.filter_filter, isFree_declare_of_free context run hfree]
          rw [hsame, hadded, hadmitted]
          simp

/-- Emitting a metamodel adds its banner and the blocks of the admitted declarations. -/
theorem blocks_emit (model : Model) :
    (run.emit model).blocks =
      run.blocks ++ .banner model.version ::
        (run.admitted model.declarations).map fun d =>
          .entity ((Context.ofModel model run.settings).plan d) := by
  have hfree : (run.begin model).isFree = run.isFree := by
    funext typeName
    simp [isFree, begin, registry, Block.name?]
  have hadmitted : (run.begin model).admitted model.declarations =
      run.admitted model.declarations := by
    simp only [admitted, hfree]
  have hblocks :=
    (blocks_foldl_declare (Context.ofModel model run.settings) (run.begin model)
      model.declarations).2
  rw [hadmitted] at hblocks
  simp only [emit, report, hblocks]
  simp [begin]

theorem nodup_admitted (declarations : List Declaration) :
    ((run.admitted declarations).map Declaration.typeName).Nodup :=
  nodup_keepFirst _

variable {run} in
theorem mem_of_mem_admitted {declaration : Declaration} {declarations : List Declaration}
    (h : declaration ∈ run.admitted declarations) : declaration ∈ declarations :=
  (List.mem_filter.mp (mem_of_mem_keepFirst h)).1

variable {run} in
/-- An admitted declaration is the first of its type name. -/
theorem findName?_of_mem_admitted {declaration : Declaration} {declarations : List Declaration}
    (h : declaration ∈ run.admitted declarations) :
    findName? Declaration.typeName declarations declaration.typeName = some declaration := by
  have hfound := findName?_of_mem (run.nodup_admitted declarations) h
  rw [admitted, findName?_keepFirst, findName?_filter run.isFree] at hfound
  split at hfound
  next => exact hfound
  next => cases hfound

/-- What a fresh run admits under a type name is the first declaration of that name, unless the name
is excluded. -/
theorem findName?_admitted (settings : Settings) (declarations : List Declaration)
    (typeName : String) :
    findName? Declaration.typeName (({ settings } : Run).admitted declarations) typeName =
      if settings.isExcluded typeName then none
      else findName? Declaration.typeName declarations typeName := by
  have hfree : ({ settings } : Run).isFree = fun typeName => !settings.isExcluded typeName := by
    funext typeName
    simp [isFree, registry]
  rw [admitted, findName?_keepFirst, hfree,
    findName?_filter fun typeName => !settings.isExcluded typeName]
  cases settings.isExcluded typeName <;> rfl

end Run

end ProtocolCodec
