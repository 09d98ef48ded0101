import ProtocolCodec.Proofs.Model.Following
import ProtocolCodec.Proofs.Model.Rearranging

/-!
# The place of the tag

The tag of a type may stand anywhere among its members: what is split off is the same, and so is
what the tag leaves, up to the order of the other members. So types are decoded alike when they are
rearranged, at any depth.
-/

namespace ProtocolCodec

open Json

namespace TypeKind

variable {depth : Nat} {form : Form}

theorem blind_decode : Blind depth form decode :=
  blind_of_scalar nofun nofun

/-- A tag that is spelled out stays so. -/
theorem spelled_of_rearranges {before after : Json} (h : Rearranges depth form before after)
    (hspelled : (decodeSpelled before).toBool) : (decodeSpelled after).toBool := by
  have hblind : Blind depth form decodeSpelled := blind_of_scalar nofun nofun
  cases hdecode : decodeSpelled before with
  | error cause =>
      rw [hdecode] at hspelled
      cases hspelled
  | ok kind =>
      rw [hblind before after kind h hdecode]
      rfl

end TypeKind

namespace TypeExpr

/-! ## The tag among the members -/

/-- The tags alone decide how a type is split; the other members are what is left. -/
theorem splitTag_eq_map (kind? : Option TypeKind) (members : Members) :
    splitTag kind? members =
      (splitTag kind? (members.filter (·.1 == "kind"))).map fun (kind?, _) =>
        (kind?, members.filter (·.1 != "kind")) := by
  induction members generalizing kind? with
  | nil => rfl
  | cons member members ih =>
      obtain ⟨key, value⟩ := member
      by_cases hkey : key = "kind"
      · subst hkey
        simp only [List.filter_cons, beq_self_eq_true, bne_self_eq_false, Bool.false_eq_true,
          if_true, if_false, splitTag]
        split
        · rfl
        · cases TypeKind.decode value with
          | error cause => rfl
          | ok kind => exact ih (some kind)
      · have hbeq : (key == "kind") = false := beq_false_of_ne hkey
        have hbne : (key != "kind") = true := bne_iff_ne.mpr hkey
        simp only [List.filter_cons, hbeq, hbne, Bool.false_eq_true, if_true, if_false]
        rw [splitTag, if_neg hkey, ih kind?]
        cases splitTag kind? (members.filter (·.1 == "kind")) <;> rfl

/-- An object is split just when it has one tag, wherever that stands. -/
theorem split_object_eq_ok_iff {members : Members} {kind : TypeKind} {content : Json} :
    split (.object members) = .ok (kind, content) ↔
      ∃ value, members.filter (·.1 == "kind") = [("kind", value)] ∧
        TypeKind.decode value = .ok kind ∧ content = .object (members.filter (·.1 != "kind")) := by
  have htags : ∀ tag ∈ members.filter (·.1 == "kind"), tag.1 = "kind" := fun tag htag =>
    beq_iff_eq.mp (List.mem_filter.mp htag).2
  rw [split, splitTag_eq_map]
  generalize members.filter (·.1 == "kind") = tags at htags ⊢
  cases tags with
  | nil => simp [splitTag, bind, Except.bind, Except.map]
  | cons tag tags =>
      obtain ⟨key, value⟩ := tag
      obtain ⟨rfl, -⟩ := List.forall_mem_cons.mp htags
      cases hdecode : TypeKind.decode value with
      | error cause => simp [splitTag, hdecode, bind, Except.bind, Except.map]
      | ok kind' =>
          cases tags with
          | nil => simp [splitTag, hdecode, bind, Except.bind, Except.map, eq_comm]
          | cons tag tags =>
              have htag : tag.1 = "kind" := htags tag (by simp)
              simp [splitTag, hdecode, htag, bind, Except.bind, Except.map]

/-! ## Rearranged types -/

section Rearranged

variable {depth : Nat} {kind : TypeKind}

/-- The fields of a type are its tag and those of its kind. -/
theorem fields?_type {document content : Json} (h : split document = .ok (kind, content)) :
    Form.type.fields? document = some (("kind", .plain) :: Form.ofKind kind) := by
  rw [Form.fields?, h]

theorem ne_kind_of_unknown {document : Json} {key : String} (h : Form.type.Unknown document key) :
    key ≠ "kind" := by
  obtain ⟨fields, hfields, hkey⟩ := h
  rw [Form.fields?] at hfields
  split at hfields
  · cases hfields
    rintro rfl
    exact hkey List.mem_cons_self
  · cases hfields

theorem filter_added {document : Json} {added : Members}
    (hadded : ∀ member ∈ added, member.2.height < depth ∧ Form.type.Unknown document member.1) :
    added.filter (·.1 == "kind") = [] ∧ added.filter (·.1 != "kind") = added := by
  have hne : ∀ member ∈ added, member.1 ≠ "kind" := fun member hmember =>
    ne_kind_of_unknown (hadded member hmember).2
  constructor
  · exact List.filter_eq_nil_iff.mpr fun member hmember => by simpa using hne member hmember
  · exact List.filter_eq_self.mpr fun member hmember => by simpa using hne member hmember

/-- The items of a rearranged type, behind the tag, are rearranged by the fields of the tag. -/
theorem rearranges_items {tag tag' : Json} {items : List (Json × Json)}
    (hitems : ∀ index before after, ((tag, tag') :: items)[index]? = some (before, after) →
      Rearranges (depth - 1) (Form.type.item (.array (tag :: items.map Prod.fst)) index) before
        after)
    (hdecode : TypeKind.decode tag = .ok kind) :
    Rearranges depth (.record (Form.ofKind kind)) (.array (items.map Prod.fst))
      (.array (items.map Prod.snd)) := by
  have hfields : Form.type.fields? (.array (tag :: items.map Prod.fst)) =
      some (("kind", .plain) :: Form.ofKind kind) := by
    have hsplit : split (.array (tag :: items.map Prod.fst)) =
        .ok (kind, .array (items.map Prod.fst)) := by
      rw [split, hdecode]
      rfl
    exact fields?_type hsplit
  refine .array items fun index before after hindex => ?_
  have hitem := hitems (index + 1) before after hindex
  change Rearranges _ ((((Form.type.fields? _).getD [])[index + 1]?.map Prod.snd).getD .plain) _ _
    at hitem
  rw [hfields] at hitem
  exact hitem

section Objects

variable {entries : List Entry} {added others : Members}
  (hentries : ∀ entry ∈ entries, Rearranges (depth - 1)
    (Form.type.member (.object (entries.map Entry.old)) entry.key) entry.before entry.after)
  (hadded : ∀ member ∈ added,
    member.2.height < depth ∧ Form.type.Unknown (.object (entries.map Entry.old)) member.1)
  (hperm : (entries.map Entry.new ++ added).Perm others)

include hentries hadded hperm

/-- The members of a rearranged type, but for the tag, are rearranged by the fields of the tag. -/
theorem rearranges_members
    (hfields : Form.type.fields? (.object (entries.map Entry.old)) =
      some (("kind", .plain) :: Form.ofKind kind)) :
    Rearranges depth (.record (Form.ofKind kind))
      (.object ((entries.map Entry.old).filter (·.1 != "kind")))
      (.object (others.filter (·.1 != "kind"))) := by
  rw [List.filter_map]
  refine .object (entries.filter (·.key != "kind")) added ?_ ?_ ?_
  · intro entry hentry
    obtain ⟨hentry, hkey⟩ := List.mem_filter.mp hentry
    have hmember := hentries entry hentry
    rw [Form.member, hfields, Option.getD_some, List.lookup_cons] at hmember
    have hbeq : (entry.key == "kind") = false := by simpa using hkey
    rw [hbeq] at hmember
    exact hmember
  · intro member hmember
    obtain ⟨hheight, fields, hsome, hkey⟩ := hadded member hmember
    rw [hfields] at hsome
    cases hsome
    exact ⟨hheight, Form.ofKind kind, rfl, fun hmem => hkey (List.mem_cons_of_mem _ hmem)⟩
  · have hfilter := hperm.filter (·.1 != "kind")
    rw [List.filter_append, (filter_added hadded).2, List.filter_map] at hfilter
    exact hfilter

/-- The only tag of a type stays its only tag. -/
theorem tags_rearranged {value : Json}
    (htags : (entries.map Entry.old).filter (·.1 == "kind") = [("kind", value)])
    (hdecode : TypeKind.decode value = .ok kind) :
    ∃ value', others.filter (·.1 == "kind") = [("kind", value')] ∧
      TypeKind.decode value' = .ok kind := by
  rw [List.filter_map] at htags
  obtain ⟨entry, hentry, hpair⟩ := List.map_eq_singleton_iff.mp htags
  obtain ⟨hkey, rfl⟩ := Prod.mk.inj hpair
  have hmem : entry ∈ entries := (List.mem_filter.mp (hentry ▸ List.mem_singleton_self entry)).1
  refine ⟨entry.after, ?_,
    TypeKind.blind_decode entry.before entry.after kind (hentries entry hmem) hdecode⟩
  have hfilter := hperm.filter (·.1 == "kind")
  rw [List.filter_append, (filter_added hadded).1, List.append_nil, List.filter_map] at hfilter
  change (List.map Entry.new (entries.filter fun entry => entry.key == "kind")).Perm _ at hfilter
  change entries.filter (fun entry => entry.key == "kind") = _ at hentry
  rw [hentry, List.map_singleton, Entry.new, hkey] at hfilter
  exact (List.singleton_perm.mp hfilter).symm

end Objects

/-- A rearranged type has the same tag, and its content is rearranged by the fields of the tag. -/
theorem split_rearranged {before after content : Json} (h : Rearranges depth .type before after)
    (hsplit : split before = .ok (kind, content)) :
    ∃ content', split after = .ok (kind, content') ∧
      Rearranges depth (.record (Form.ofKind kind)) content content' := by
  have hfields := fields?_type hsplit
  cases h with
  | same => exact ⟨content, hsplit, .same depth _ content⟩
  | array items hitems =>
      cases items with
      | nil => cases hsplit
      | cons pair items =>
          obtain ⟨tag, tag'⟩ := pair
          obtain ⟨kind', hdecode, hpair⟩ := exists_of_bind_eq_ok hsplit
          cases hpair
          refine ⟨.array (items.map Prod.snd), ?_, rearranges_items hitems hdecode⟩
          rw [List.map_cons, split,
            TypeKind.blind_decode tag tag' kind (hitems 0 tag tag' rfl) hdecode]
          rfl
  | @object _ _ entries added others hentries hadded hperm =>
      obtain ⟨value, htags, hdecode, rfl⟩ := split_object_eq_ok_iff.mp hsplit
      obtain ⟨value', htags', hdecode'⟩ := tags_rearranged hentries hadded hperm htags hdecode
      exact ⟨.object (others.filter (·.1 != "kind")),
        split_object_eq_ok_iff.mpr ⟨value', htags', hdecode', rfl⟩,
        rearranges_members hentries hadded hperm hfields⟩

end Rearranged

/-! ## Blind decoders of types -/

section Blindness

variable {α : Type} {depth : Nat} {form : Form}

theorem blind_decodeInt64 : Blind depth form decodeInt64 :=
  blind_of_scalar nofun nofun

theorem blind_decodeField {kind : TypeKind} {key : String} {decode : Decoder α} {blank : α}
    (h : Blind (depth - 1) form decode) :
    Blind depth (.record [(key, form)]) (decodeField kind key decode blank) :=
  blind_decodeRecord (.cons (fieldBlind_valueField h) .nil) (List.pairwise_singleton _ _)

variable {type : Decoder TypeExpr} (htype : ∀ depth, Blind depth .type type)

include htype

theorem blind_decodeLiteralProperty :
    Blind depth Form.literalProperty (decodeLiteralProperty type) := by
  refine Blind.bind (blind_decodeRecord ?_ ?_) _
  · refine .cons (fieldBlind_valueField blind_decodeText) ?_
    refine .cons (fieldBlind_valueField (htype _)) ?_
    exact .cons (fieldBlind_valueField blind_decodeFlag) .nil
  · simp [literalFields, commutes_valueField]

theorem blind_decodeLiteral :
    Blind depth (.record [("properties", .list Form.literalProperty)]) (decodeLiteral type) :=
  blind_decodeRecord (.cons (fieldBlind_valueField (blind_decodeLiteralProperty htype).list) .nil)
    (List.pairwise_singleton _ _)

/-- What goes with a tag is decoded alike when it is rearranged by the fields of the tag. -/
theorem blind_decodeContent (kind : TypeKind) :
    Blind depth (.record (Form.ofKind kind)) (decodeContent type kind) := by
  cases kind with
  | base => exact (blind_decodeField blind_decodeText).map _
  | reference => exact (blind_decodeField blind_decodeText).map _
  | array => exact (blind_decodeField (htype _)).map _
  | map =>
      refine Blind.bind (blind_decodeRecord ?_ ?_) _
      · exact .cons (fieldBlind_valueField (htype _)) (.cons (fieldBlind_valueField (htype _)) .nil)
      · simp [commutes_valueField]
  | union => exact (blind_decodeField (htype _).list).map _
  | intersection => exact (blind_decodeField (htype _).list).map _
  | literal => exact (blind_decodeField (blind_decodeLiteral htype)).map _
  | stringLiteral => exact (blind_decodeField blind_decodeText).map _
  | integerLiteral => exact (blind_decodeField blind_decodeInt64).map _
  | booleanLiteral => exact (blind_decodeField blind_decodeFlag).map _
  | tuple => exact (blind_decodeField (htype _).list).map _

end Blindness

/-- Types inside others are decoded alike when they are rearranged. The induction is on how deep
they are nested. -/
theorem blind_decode (limit depth : Nat) : Blind depth .type (decode limit) := by
  induction limit generalizing depth with
  | zero =>
      intro before after a _ hdecode
      rw [decode] at hdecode
      split at hdecode <;> cases hdecode
  | succ limit ih =>
      intro before after a hchange hdecode
      rw [decode] at hdecode ⊢
      split at hdecode
      · cases hdecode
      next kind content hsplit =>
        obtain ⟨content', hsplit', hcontent⟩ := split_rearranged hchange hsplit
        rw [hsplit']
        exact blind_decodeContent ih kind content content' a hcontent hdecode

/-- A tag that is spelled out stays so. -/
theorem spelled_rearranged {depth : Nat} {before after : Json}
    (h : Rearranges depth .type before after) (hspelled : spelled before) : spelled after := by
  cases h with
  | same => exact hspelled
  | array items hitems =>
      cases items with
      | nil => rfl
      | cons pair items =>
          exact TypeKind.spelled_of_rearranges (hitems 0 pair.1 pair.2 rfl) hspelled
  | object entries added hentries hadded hperm =>
      rw [spelled, List.all_eq_true] at hspelled ⊢
      intro member hmember
      rcases List.mem_append.mp (hperm.mem_iff.mpr hmember) with hkept | hmember
      · obtain ⟨entry, hentry, rfl⟩ := List.mem_map.mp hkept
        have hbefore := hspelled _ (List.mem_map_of_mem hentry)
        rw [spelledMember, Bool.or_eq_true] at hbefore ⊢
        exact hbefore.imp id (TypeKind.spelled_of_rearranges (hentries entry hentry))
      · have hne := ne_kind_of_unknown (hadded member hmember).2
        simp [spelledMember, hne]

/-- Decoding a type is blind to the order of members and to foreign ones. -/
theorem blind_decodeOutermost (depth : Nat) : Blind depth .type (decodeOutermost depth) := by
  intro before after a hchange hdecode
  rw [decodeOutermost] at hdecode ⊢
  split at hdecode
  next hfits =>
    rw [if_pos ⟨hchange.height_le hfits.1, spelled_rearranged hchange hfits.2⟩]
    exact blind_decode (depth + 1) depth before after a hchange hdecode
  next => cases hdecode

end TypeExpr

end ProtocolCodec
