import ContractFixture.Proofs.Json.Written

/-! # The layout of a content -/

namespace ContractFixture.Json

/-! ## The canonical form -/

theorem mem_canonical_obj {members : List (String × Json)} {m : String × Json}
    (h : m ∈ Keyed.ofList (canonicalMembers members)) :
    ∃ given ∈ members, m = (given.1, given.2.canonical) := by
  rw [canonicalMembers_eq] at h
  obtain ⟨given, member, rfl⟩ := List.mem_map.mp (Keyed.mem_of_mem_ofList h)
  exact ⟨given, member, rfl⟩

theorem isCanonical_canonical (document : Json) : document.canonical.IsCanonical := by
  induction document with
  | arr items ih =>
    rw [canonical, canonicalItems_eq, isCanonical_arr_iff]
    exact List.forall_mem_map.mpr ih
  | obj members ih =>
    rw [canonical, isCanonical_obj_iff]
    refine ⟨Keyed.sorted_ofList _, fun m member => ?_⟩
    obtain ⟨given, stands, rfl⟩ := mem_canonical_obj member
    exact ih given stands
  | _ => trivial

theorem OnlyWords.canonical {document : Json} (h : document.OnlyWords) :
    document.canonical.OnlyWords := by
  induction h with
  | arr _ ih =>
    rw [Json.canonical, canonicalItems_eq]
    exact .arr (List.forall_mem_map.mpr ih)
  | obj _ ih =>
    refine .obj fun m member => ?_
    obtain ⟨given, stands, rfl⟩ := mem_canonical_obj member
    exact ih given stands
  | null => exact .null
  | bool => exact .bool
  | num word => exact .num word
  | str => exact .str

theorem deepest_le_iff {α : Type} {depthOf : α → Nat} {pieces : List α} {n : Nat} :
    Reader.deepest depthOf pieces ≤ n ↔ ∀ x ∈ pieces, depthOf x ≤ n := by
  induction pieces with
  | nil => simp [Reader.deepest]
  | cons x rest ih =>
    rw [List.forall_mem_cons, ← ih]
    exact Nat.max_le

theorem depth_canonical_le (document : Json) : document.canonical.depth ≤ document.depth := by
  induction document with
  | arr items ih =>
    have own := deepest_le_iff.mp (Nat.le_refl (Reader.deepest depth items))
    rw [canonical, depth, depth, canonicalItems_eq, Reader.itemsDepth_eq, Reader.itemsDepth_eq]
    apply Nat.succ_le_succ
    rw [deepest_le_iff, List.forall_mem_map]
    exact fun item member => Nat.le_trans (ih item member) (own item member)
  | obj members ih =>
    have own := deepest_le_iff.mp (Nat.le_refl (Reader.deepest (depth ·.2) members))
    rw [canonical, depth, depth, Reader.membersDepth_eq, Reader.membersDepth_eq]
    apply Nat.succ_le_succ
    rw [deepest_le_iff]
    intro m member
    obtain ⟨given, stands, rfl⟩ := mem_canonical_obj member
    exact Nat.le_trans (ih given stands) (own given stands)
  | _ => exact Nat.le_refl _

/-! ## Comparison -/

theorem beq_number_iff {m n : Number} (word : m.IsWord) : (m == n) = true ↔ m = n := by
  cases m with
  | float => exact word.elim
  | int m =>
    cases n with
    | float x finite => exact ⟨nofun, nofun⟩
    | int n =>
      have values : (m == n) = true ↔ m = n := beq_iff_eq
      rw [Number.int.injEq]
      exact values

theorem itemsAgree_iff {items others : List Json}
    (each : ∀ item ∈ items, ∀ other, item.agrees other = true ↔ item = other) :
    itemsAgree items others = true ↔ items = others := by
  induction items generalizing others with
  | nil => cases others <;> simp [itemsAgree]
  | cons item items ih =>
    obtain ⟨first, rest⟩ := List.forall_mem_cons.mp each
    cases others with
    | nil => simp [itemsAgree]
    | cons other others =>
      rw [itemsAgree, Bool.and_eq_true, first, ih rest, List.cons.injEq]

theorem membersAgree_iff {members others : List (String × Json)}
    (each : ∀ m ∈ members, ∀ other, m.2.agrees other = true ↔ m.2 = other) :
    membersAgree members others = true ↔ members = others := by
  induction members generalizing others with
  | nil => cases others <;> simp [membersAgree]
  | cons m members ih =>
    obtain ⟨first, rest⟩ := List.forall_mem_cons.mp each
    cases others with
    | nil => simp [membersAgree]
    | cons other others =>
      rw [membersAgree, Bool.and_eq_true, Bool.and_eq_true, beq_iff_eq, first, ih rest,
        List.cons.injEq, Prod.mk.injEq]

theorem agrees_iff {document other : Json} (words : document.OnlyWords) :
    document.agrees other = true ↔ document = other := by
  induction document generalizing other with
  | arr items ih =>
    cases words with
    | arr words =>
      cases other with
      | arr others =>
        have each : ∀ item ∈ items, ∀ other, item.agrees other = true ↔ item = other :=
          fun item member _ => ih item member (words item member)
        rw [agrees, itemsAgree_iff each, arr.injEq]
      | _ => exact ⟨nofun, nofun⟩
  | obj members ih =>
    cases words with
    | obj words =>
      cases other with
      | obj others =>
        have each : ∀ m ∈ members, ∀ other, m.2.agrees other = true ↔ m.2 = other :=
          fun m member _ => ih m member (words m member)
        rw [agrees, membersAgree_iff each, obj.injEq]
      | _ => exact ⟨nofun, nofun⟩
  | num m =>
    cases words with
    | num word =>
      cases other with
      | num n => rw [agrees, beq_number_iff word, num.injEq]
      | _ => exact ⟨nofun, nofun⟩
  | null =>
    cases other with
    | null => exact ⟨fun _ => rfl, fun _ => rfl⟩
    | _ => exact ⟨nofun, nofun⟩
  | bool value =>
    cases other with
    | bool value' => rw [agrees, beq_iff_eq, bool.injEq]
    | _ => exact ⟨nofun, nofun⟩
  | str text =>
    cases other with
    | str text' => rw [agrees, beq_iff_eq, str.injEq]
    | _ => exact ⟨nofun, nofun⟩

/-! ## Layouts -/

/-- The text writes a document whose numbers are integers of 64 bits. -/
def WritesWords (text : String) : Prop :=
  ∃ written, Grammar.Document text.toList written ∧ written.OnlyWords

theorem onlyWords_of_parse {text : String} {document : Json} (read : parse text = .ok document)
    (words : WritesWords text) : document.OnlyWords := by
  obtain ⟨written, derived, -, rfl⟩ := parse_eq_ok_iff.mp read
  obtain ⟨written', derived', words⟩ := words
  obtain rfl := Reader.document_unique derived derived'
  exact words.canonical

theorem parse_pretty {text : String} {document : Json} (read : parse text = .ok document)
    (words : WritesWords text) : parse document.pretty = .ok document := by
  have layout := Grammar.value_prettyChars (onlyWords_of_parse read words) 0
  obtain ⟨written, -, within, rfl⟩ := parse_eq_ok_iff.mp read
  have depth := Nat.le_trans (depth_canonical_le written) within
  exact (parse_written layout (isCanonical_canonical written)).1 depth

theorem format_of_parse {text : String} {document : Json} (read : parse text = .ok document) :
    format text = .ok document.pretty := by
  rw [format, read]
  rfl

/-- Two texts without doubles get one layout exactly if they have one content. -/
theorem layout_decides_content {a b : String} {document document' : Json}
    (read : parse a = .ok document) (read' : parse b = .ok document')
    (words : WritesWords a) (words' : WritesWords b) :
    (format a = format b ↔ parse a = parse b) ∧
    (parse a = parse b ↔ (document == document') = true) ∧
    ∃ layout, format a = .ok layout ∧ format layout = .ok layout := by
  have again := parse_pretty read words
  have again' := parse_pretty read' words'
  refine ⟨?_, ?_, document.pretty, format_of_parse read, format_of_parse again⟩
  · rw [format_of_parse read, format_of_parse read']
    constructor
    · intro same
      rw [Except.ok.inj same, again'] at again
      rw [read, read', again]
    · intro same
      rw [read, read'] at same
      rw [Except.ok.inj same]
  · have agree : (document == document') = true ↔ document = document' :=
      agrees_iff (onlyWords_of_parse read words)
    rw [read, read', Except.ok.injEq, agree]

theorem repeated_key_layout :
    format "\x7b\"b\":1,\"b\":2\x7d" = format "\x7b\n  \"b\": 2\n\x7d" ∧
    ∃ layout, format "\x7b\"b\":1,\"b\":2\x7d" = .ok layout ∧ format layout = .ok layout := by
  have word : ∀ n : Nat, n < 10 → (int n).OnlyWords := by
    intro n small
    exact .num ⟨by omega, by omega⟩
  have once : (obj [("b", int 2)]).OnlyWords :=
    .obj (List.forall_mem_singleton.mpr (word 2 (by decide)))
  have twice : (obj [("b", int 1), ("b", int 2)]).OnlyWords :=
    .obj (List.forall_mem_cons.mpr ⟨word 1 (by decide),
      List.forall_mem_singleton.mpr (word 2 (by decide))⟩)
  have derived := Grammar.document_of_value (Grammar.value_compactChars twice)
  have derived' := Grammar.document_of_value (Grammar.value_prettyChars once 0)
  have read : parse "\x7b\"b\":1,\"b\":2\x7d" = .ok (obj [("b", int 2)]) :=
    parse_eq_ok_iff.mpr ⟨_, derived, by decide, rfl⟩
  have read' : parse "\x7b\n  \"b\": 2\n\x7d" = .ok (obj [("b", int 2)]) :=
    parse_eq_ok_iff.mpr ⟨_, derived', by decide, rfl⟩
  have decided := layout_decides_content read read' ⟨_, derived, twice⟩ ⟨_, derived', once⟩
  exact ⟨decided.1.mpr (read.trans read'.symm), decided.2.2⟩

end ContractFixture.Json
