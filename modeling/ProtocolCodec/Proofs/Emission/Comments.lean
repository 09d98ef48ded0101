import ProtocolCodec.Proofs.Emission
import ProtocolCodec.Proofs.Naming
import ProtocolCodec.Proofs.Text.Lines

/-!
# Comments in the output

Texts of the schema get into comments in two places. The banner takes the version as it is: it is
one line just when the version has no line feed. A documentation is cut to a summary: the beginning
of its first line that is not blank. The comment with the summary is always one line, but a carriage
return inside that line stays where it is.
-/

namespace ProtocolCodec

/-- A text that is one line: it ends in a line feed and has no other. -/
def IsOneLine (text : String) : Prop :=
  ∃ line, '\n' ∉ line ∧ text.toList = line ++ ['\n']

theorem isOneLine_iff {text : String} {front : List Char} (htext : text.toList = front ++ ['\n']) :
    IsOneLine text ↔ '\n' ∉ front := by
  constructor
  · rintro ⟨line, hline, hfeed⟩
    rw [htext] at hfeed
    rwa [List.append_cancel_right hfeed]
  · exact fun hfront => ⟨front, hfront, htext⟩

/-- Indentation adds no line feed. -/
theorem isOneLine_render_iff {line : Line} :
    IsOneLine line.render ↔ '\n' ∉ line.text.toList := by
  have hindent : '\n' ∉ (String.join (List.replicate line.depth "    ")).toList := by
    rw [String.toList_join, List.mem_flatMap]
    rintro ⟨blanks, hblanks, hfeed⟩
    rw [List.eq_of_mem_replicate hblanks] at hfeed
    exact absurd hfeed (by decide)
  rw [isOneLine_iff String.toList_append, String.toList_append, List.mem_append, not_or]
  exact and_iff_right hindent

/-- The banner is one line just when the version holds no line feed. -/
theorem isOneLine_banner_iff (version : String) :
    IsOneLine (Block.banner version).text ↔ '\n' ∉ version.toList := by
  have hbanner : (Block.banner version).text =
      "// Generated from protocol metamodel version " ++ version ++ ". Do not edit.\n" := rfl
  have htext : (Block.banner version).text.toList =
      ("// Generated from protocol metamodel version ".toList ++ version.toList ++
        ". Do not edit.".toList) ++ ['\n'] := by
    simp [hbanner]
  rw [isOneLine_iff htext]
  simp

theorem Line.renderAll_singleton (line : Line) : Line.renderAll [line] = line.render := by
  rw [renderAll, List.map_singleton, String.join_cons, String.join_nil, String.append_empty]

/-! ## Summaries -/

namespace Source

open Text

/-- The first line of a documentation that is not blank, trimmed. -/
def IsFirstLine (documentation : String) (line : List Char) : Prop :=
  line ≠ [] ∧ ∃ blank others,
    (lines documentation.toList).map trim = blank ++ line :: others ∧ ∀ other ∈ blank, other = []

/-- What is carried over of a line: its beginning, up to 120 characters, but no blanks at the
end. -/
structure IsSummary (line summary : List Char) : Prop where
  ne_nil : summary ≠ []
  length_le : summary.length ≤ 120
  starts : summary <+: line
  cuts_blanks : ∀ c ∈ (line.take 120).drop summary.length, isBlank c = true
  head_no_blank : ∀ c ∈ summary.head?, isBlank c = false
  last_no_blank : ∀ c ∈ summary.getLast?, isBlank c = false
  no_feed : '\n' ∉ summary

/-- A documentation of blanks has no summary, any other the beginning of its first line. -/
theorem summary?_cases (documentation : String) :
    (∀ c ∈ documentation.toList, isBlank c = true) ∧ summary? documentation = none ∨
    ∃ line, IsFirstLine documentation line ∧
      summary? documentation = some (trimEnd (line.take summaryLimit)) := by
  unfold summary?
  cases hfind : ((lines documentation.toList).map trim).find? fun line => !line.isEmpty with
  | none =>
      left
      refine ⟨?_, by simp only [hfind, Option.map_none]⟩
      rw [← forall_trim_lines_eq_nil_iff]
      simpa using List.find?_eq_none.mp hfind
  | some line =>
      right
      obtain ⟨hline, blank, others, hlines, hblank⟩ := List.find?_eq_some_iff_append.mp hfind
      refine ⟨line, ⟨by simpa using hline, blank, others, hlines, by simpa using hblank⟩, ?_⟩
      simp only [hfind, Option.map_some]

/-- The beginning of a first line, trimmed, is a summary of it. -/
theorem isSummary_of_isFirstLine {documentation : String} {line : List Char}
    (h : IsFirstLine documentation line) : IsSummary line (trimEnd (line.take summaryLimit)) := by
  obtain ⟨hne, blank, others, hlines, -⟩ := h
  have hmem : line ∈ (lines documentation.toList).map trim := by
    rw [hlines]
    exact List.mem_append_right _ List.mem_cons_self
  obtain ⟨untrimmed, huntrimmed, rfl⟩ := List.mem_map.mp hmem
  -- the line begins with something that is not blank, and the cut keeps it
  have hhead : ((trim untrimmed).take summaryLimit).head? = (trim untrimmed).head? := by
    rw [List.head?_take]
    rfl
  obtain ⟨first, hfirst⟩ := Option.ne_none_iff_exists'.mp (mt List.head?_eq_none_iff.mp hne)
  have hsummary : trimEnd ((trim untrimmed).take summaryLimit) ≠ [] :=
    trimEnd_ne_nil (hhead.trans hfirst) (isBlank_head?_trim hfirst)
  obtain ⟨blanks, hcut, -⟩ := exists_eq_trimEnd_append ((trim untrimmed).take summaryLimit)
  have hstarts : trimEnd ((trim untrimmed).take summaryLimit) <+:
      (trim untrimmed).take summaryLimit := ⟨blanks, hcut.symm⟩
  exact {
    ne_nil := hsummary
    length_le := hstarts.length_le.trans (List.length_take_le _ _)
    starts := hstarts.trans (List.take_prefix _ _)
    cuts_blanks := fun c hc => isBlank_of_mem_drop_trimEnd hc
    head_no_blank := by
      rw [head?_trimEnd hsummary, hhead]
      exact fun c hc => isBlank_head?_trim hc
    last_no_blank := fun c hc => isBlank_getLast?_trimEnd hc
    no_feed := fun hfeed => notMem_of_mem_lines huntrimmed
      (mem_of_mem_trim (List.mem_of_mem_take (hstarts.mem hfeed))) }

/-- A documentation gets no comment when it is blank, and otherwise one line with the summary of its
first line. -/
theorem comment_cases (depth : Nat) (documentation : String) :
    (∀ c ∈ documentation.toList, isBlank c = true) ∧ comment depth (some documentation) = [] ∨
    ∃ line summary, IsFirstLine documentation line ∧ IsSummary line summary ∧
      comment depth (some documentation) = [⟨depth, "/// " ++ String.ofList summary⟩] ∧
      IsOneLine (Line.renderAll (comment depth (some documentation))) ∧
      ('\r' ∈ summary ↔ ∃ before after, line.take 120 = before ++ '\r' :: after ∧
        ∃ c ∈ after, isBlank c = false) := by
  rcases summary?_cases documentation with ⟨hblank, hnone⟩ | ⟨line, hline, hsome⟩
  · refine Or.inl ⟨hblank, ?_⟩
    rw [comment, Option.bind_some, hnone]
  · have hsummary := isSummary_of_isFirstLine hline
    have hcomment : comment depth (some documentation) =
        [⟨depth, "/// " ++ String.ofList (trimEnd (line.take summaryLimit))⟩] := by
      rw [comment, Option.bind_some, hsome]
    refine Or.inr ⟨line, _, hline, hsummary, hcomment, ?_, mem_trimEnd_iff (by decide)⟩
    rw [hcomment, Line.renderAll_singleton, isOneLine_render_iff]
    simpa using hsummary.no_feed

end Source

/-! ## Comments of a declaration -/

namespace Line

/-- Whether a line is a comment on what follows it. -/
def isComment (line : Line) : Bool :=
  ['/', '/', '/'].isPrefixOf line.text.toList

end Line

namespace Plan

/-- The lines that declare the type of a plan. -/
def typeLines : Plan → List Line
  | enumeration plan => Source.enumerationType plan
  | record plan => Source.recordType plan
  | synonym plan => Source.synonym plan

/-- The documentations of a plan in the order of the text, each with its depth. -/
def documentations : Plan → List (Nat × Option String)
  | enumeration plan =>
      (0, plan.documentation) :: plan.arms.map fun arm => (1, arm.documentation)
  | record plan =>
      (0, plan.documentation) :: plan.fields.map fun field => (1, field.documentation)
  | synonym plan => [(0, plan.documentation)]

/-- The comments for the documentations of a plan. -/
def comments (plan : Plan) : List Line :=
  plan.documentations.flatMap fun (depth, documentation) => Source.comment depth documentation

/-- A declaration is written as its type and then its codec. -/
theorem exists_lines_eq_append (plan : Plan) : ∃ codec, plan.lines = plan.typeLines ++ codec := by
  cases plan with
  | enumeration plan =>
      simp only [lines, Source.enumeration, typeLines, List.append_assoc]
      exact ⟨_, rfl⟩
  | record plan =>
      simp only [lines, Source.record, typeLines, List.append_assoc]
      exact ⟨_, rfl⟩
  | synonym plan => exact ⟨[], (List.append_nil _).symm⟩

end Plan

namespace Source

theorem filter_isComment_comment (depth : Nat) (documentation : Option String) :
    (comment depth documentation).filter Line.isComment = comment depth documentation := by
  unfold comment
  split
  next summary _ => simp [Line.isComment]
  next => rfl

/-- Of members with a comment each, the comments are what is left. -/
theorem filter_isComment_members {α : Type} (members : List α) (documentation : α → Option String)
    {line : α → Line} (h : ∀ member ∈ members, (line member).isComment = false) :
    (members.flatMap fun member => comment 1 (documentation member) ++ [line member]).filter
      Line.isComment = members.flatMap fun member => comment 1 (documentation member) := by
  rw [List.filter_flatMap]
  apply List.flatMap_congr
  intro member hmember
  rw [List.filter_append, filter_isComment_comment]
  simp [h member hmember]

theorem isComment_variant {variant : String} (h : ∀ c ∈ variant.toList, c ≠ '/') (depth : Nat) :
    Line.isComment ⟨depth, variant ++ ","⟩ = false := by
  rw [Line.isComment, String.toList_append]
  cases hvariant : variant.toList with
  | nil => rfl
  | cons c rest =>
      have hc : c ≠ '/' := h c (by rw [hvariant]; exact List.mem_cons_self)
      simp [List.isPrefixOf, hc.symm]

/-- The comments in the type of an enumeration are those of the plan. -/
theorem filter_isComment_enumerationType {plan : EnumPlan}
    (h : ∀ arm ∈ plan.arms, ∀ c ∈ arm.variant.toList, c ≠ '/') :
    (enumerationType plan).filter Line.isComment = (Plan.enumeration plan).comments := by
  have harms := filter_isComment_members plan.arms EnumArm.documentation
    fun arm harm => isComment_variant (h arm harm) 1
  simp only [enumerationType, List.filter_append, harms, filter_isComment_comment, Plan.comments,
    Plan.documentations, List.flatMap_cons, List.flatMap_map]
  simp [Line.isComment, List.isPrefixOf]

theorem isComment_field (plan : FieldPlan) :
    Line.isComment ⟨1, "pub " ++ plan.field ++ ": " ++ plan.target.spelling ++ ","⟩ = false := by
  simp [Line.isComment, List.isPrefixOf]

theorem filter_isComment_recordType (plan : RecordPlan) :
    (recordType plan).filter Line.isComment = (Plan.record plan).comments := by
  have hfields := filter_isComment_members plan.fields FieldPlan.documentation
    fun field _ => isComment_field field
  simp only [recordType, List.filter_append, filter_isComment_comment, Plan.comments,
    Plan.documentations, List.flatMap_cons, List.flatMap_map]
  cases hempty : plan.fields.isEmpty with
  | true =>
      rw [List.isEmpty_iff.mp hempty]
      simp [Line.isComment, List.isPrefixOf]
  | false =>
      simp only [Bool.false_eq_true, if_false, List.filter_append, hfields]
      simp [Line.isComment, List.isPrefixOf]

theorem filter_isComment_synonym (plan : SynonymPlan) :
    (synonym plan).filter Line.isComment = (Plan.synonym plan).comments := by
  simp only [synonym, List.filter_append, filter_isComment_comment, Plan.comments,
    Plan.documentations, List.flatMap_singleton]
  simp [Line.isComment, List.isPrefixOf]

end Source

/-- The comments on a declared type and its members are those for their documentations. -/
theorem Context.filter_isComment_plan (context : Context) (declaration : Declaration) :
    (context.plan declaration).typeLines.filter Line.isComment =
      (context.plan declaration).comments := by
  cases declaration with
  | enumeration e =>
      apply Source.filter_isComment_enumerationType
      intro arm harm c hc hslash
      obtain ⟨member, -, rfl⟩ := List.mem_map.mp (mem_of_mem_keepFirst harm)
      rw [hslash] at hc
      rcases Naming.word_variantName member.name '/' hc with hword | hword <;>
        exact absurd hword (by decide)
  | record s => exact Source.filter_isComment_recordType _
  | synonym a => exact Source.filter_isComment_synonym _

/-- The output is the banner and, for declarations of the metamodel, an empty line and the lines of
the plan. -/
theorem exists_generate_eq (model : Model) (settings : Settings) :
    ∃ emitted, emitted ⊆ model.declarations ∧
      generate model settings = (Block.banner model.version).text ++
        String.join (emitted.map fun declaration =>
          "\n" ++ Line.renderAll ((Context.ofModel model settings).plan declaration).lines) := by
  refine ⟨({ settings } : Run).admitted model.declarations,
    fun declaration hmem => Run.mem_of_mem_admitted hmem, ?_⟩
  rw [generate, Run.text, Run.blocks_emit, List.nil_append, List.map_cons, String.join_cons,
    List.map_map]
  rfl

/-- What the schema gets into comments. The banner comes first, and it is one line just when the
version has no line feed. The comments on a declaration are those for its documentations. There is
none for a documentation that is absent or blank. Any other gets one line with the summary of its
first line that is not blank; a carriage return gets into it just when one stands in that line, in
front of something within the limit that is not blank. -/
theorem comments_oneLine (model : Model) (settings : Settings) :
    (∃ emitted, emitted ⊆ model.declarations ∧
      generate model settings = (Block.banner model.version).text ++
        String.join (emitted.map fun declaration =>
          "\n" ++ Line.renderAll ((Context.ofModel model settings).plan declaration).lines)) ∧
    (IsOneLine (Block.banner model.version).text ↔ '\n' ∉ model.version.toList) ∧
    (∀ declaration,
      let plan := (Context.ofModel model settings).plan declaration
      (∃ codec, plan.lines = plan.typeLines ++ codec) ∧
      plan.typeLines.filter Line.isComment =
        plan.documentations.flatMap fun (depth, documentation) =>
          Source.comment depth documentation) ∧
    ∀ depth, Source.comment depth none = [] ∧ ∀ documentation,
      (∀ c ∈ documentation.toList, Text.isBlank c = true) ∧
        Source.comment depth (some documentation) = [] ∨
      ∃ line summary, Source.IsFirstLine documentation line ∧ Source.IsSummary line summary ∧
        Source.comment depth (some documentation) = [⟨depth, "/// " ++ String.ofList summary⟩] ∧
        IsOneLine (Line.renderAll (Source.comment depth (some documentation))) ∧
        ('\r' ∈ summary ↔ ∃ before after, line.take 120 = before ++ '\r' :: after ∧
          ∃ c ∈ after, Text.isBlank c = false) := by
  refine ⟨exists_generate_eq model settings, isOneLine_banner_iff model.version, ?_, ?_⟩
  · intro declaration plan
    exact ⟨plan.exists_lines_eq_append, Context.filter_isComment_plan _ declaration⟩
  · intro depth
    exact ⟨rfl, Source.comment_cases depth⟩

/-- A version with a line feed and a documentation with a carriage return in its line. -/
def escaping : Model where
  version := "1\nmod escaped;"
  aliases := [{ name := "Level", type := .base "string", documentation := some "Loud.\rQuiet." }]

/-- What follows the line feed is no comment any more, and the carriage return is in the summary. -/
theorem not_comments_oneLine_escaping :
    generate escaping .empty =
      "// Generated from protocol metamodel version 1\nmod escaped;. Do not edit.\n" ++
        "\n/// Loud.\rQuiet.\npub type Level = String;\n" ∧
    ¬ IsOneLine (Block.banner escaping.version).text ∧
    ∃ summary, Source.comment 0 (some "Loud.\rQuiet.") = [⟨0, "/// " ++ String.ofList summary⟩] ∧
      '\r' ∈ summary := by
  refine ⟨by decide +kernel, ?_, "Loud.\rQuiet.".toList, by rfl, by decide⟩
  rw [isOneLine_banner_iff]
  decide

end ProtocolCodec
