import TableShell.Console
import TableShell.Proofs.Json
import TableShell.Proofs.Text.Fields
import TableShell.Proofs.Value.Json

/-!
# One JSON text on each line

Whatever prints a value as JSON on one line, no control character reaches that text
(`Json.IsCompact.noControl`). So the line feeds between the texts of items are the only ones, and
the lines that are printed are those texts, one for each item (`OutputFormat.lines_renderBy`).
-/

namespace TableShell

/-! ## The lines of a result -/

/-- The JSON of an item is an object, and its fields have the names of the attributes. -/
theorem Item.exists_toJson (item : Item) :
    ∃ fields, item.toJson = .obj fields ∧ fields.map (·.1) = item.names := by
  refine ⟨_, rfl, ?_⟩
  rw [Value.entriesToJson_eq_map, List.map_map]
  rfl

namespace OutputFormat

/-- Items printed as JSON take one line each, whatever they contain and however values are printed
on one line. Cut at its line feeds, the text has exactly the texts of the items as its lines, in
their order. Each of them is the text of an object whose fields are named like the attributes of its
item, and no line contains a control character. -/
theorem lines_renderBy {print : Json → List Char} (h : Json.IsCompact print) {items : List Item}
    (hne : items ≠ []) :
    Text.fields (· == '\n') (json.renderBy print items).toList =
        items.map (fun item => print item.toJson) ∧
      (∀ item ∈ items, ∃ fields, item.toJson = .obj fields ∧ fields.map (·.1) = item.names) ∧
      ∀ line ∈ Text.fields (· == '\n') (json.renderBy print items).toList, Text.NoControl line := by
  have hplain : ∀ line ∈ items.map (fun item => print item.toJson), Text.NoControl line :=
    List.forall_mem_map.2 fun item _ => h.noControl item.toJson
  -- the line feed is a control character itself, so the only ones are those between the items
  have hlines : Text.fields (· == '\n') (json.renderBy print items).toList =
      items.map (fun item => print item.toJson) := by
    rw [renderBy, String.toList_ofList]
    refine Text.fields_intercalate rfl (by simpa using hne) fun line hline c hc => ?_
    rw [beq_eq_false_iff_ne]
    rintro rfl
    exact absurd (hplain line hline _ hc) (by decide)
  refine ⟨hlines, fun item _ => item.exists_toJson, ?_⟩
  rw [hlines]
  exact hplain

/-- Line feeds, quotes and control characters in names, strings and numbers that stay texts. -/
theorem lines_renderBy_line_feeds :
    Json.IsCompact Json.compact ∧
      [Item.ofList [("a\n\"", .list [.string "\n\x01", .map [("\r", .number "1\n")]])],
        Item.ofList []] ≠ [] ∧
      Text.fields (· == '\n') (json.renderBy Json.compact
        [Item.ofList [("a\n\"", .list [.string "\n\x01", .map [("\r", .number "1\n")]])],
          Item.ofList []]).toList =
        ["\x7b\"a\\n\\\"\":[\"\\n\\u0001\",\x7b\"\\r\":\"1\\n\"\x7d]\x7d".toList,
          "\x7b\x7d".toList] := by
  refine ⟨Json.isCompact_compact, List.cons_ne_nil _ _, ?_⟩
  rw [(lines_renderBy Json.isCompact_compact (List.cons_ne_nil _ _)).1]
  decide +kernel

end OutputFormat

end TableShell
