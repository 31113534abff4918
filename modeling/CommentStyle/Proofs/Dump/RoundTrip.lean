import CommentStyle.Dump.Text
import CommentStyle.Proofs.Json.RoundTrip
import CommentStyle.Text.Utf8

/-!
# Comments come back from their JSON dump

A dump written as JSON is read back to the comments it was written from, in every layout, also behind a
change of line ends. The argument has three layers, each an exact inverse:

* **`ofData_toData`** — the data of a dump give its comments back: every record names its kind, its text
  and its whole place, so that no default comes in.
* **`storable_toData`** — the data of writable comments are four levels of collections over texts, truth
  values and short enough numbers, so that `Json.read_render` applies.
* **`unifyLineEnds_of_notMem`** — without a carriage return there is nothing to change.
-/

namespace CommentStyle

theorem Text.unifyLineEnds_of_notMem {cs : List Char} (hcs : '\r' ∉ cs) : unifyLineEnds cs = cs := by
  fun_induction unifyLineEnds cs with
  | case1 rest ih => simp at hcs
  | case2 rest _ ih => simp at hcs
  | case3 c rest _ _ ih => rw [ih fun hmem => hcs (List.mem_cons_of_mem c hmem)]
  | case4 => rfl

namespace Dump

/-! ## From the data back to the comments -/

/-- A written record is read back, whatever its place in the dump. -/
theorem comment_recordData (index : Int) (c : Comment) : comment index (recordData c) = .ok c := by
  unfold comment recordData
  simp [Value.entries?, Value.unfold, textOf, kindOf, placeOf, Value.field?, Value.sameKey, positionData,
    bind, Except.bind, pure, Except.pure]

/-- Records of any form that gives each comment back give them all. -/
theorem commentsFrom_map {write : Comment → Value} (hwrite : ∀ index c, comment index (write c) = .ok c)
    (index : Nat) (cs : List Comment) : commentsFrom index (cs.map write) = .ok cs := by
  induction cs generalizing index with
  | nil => rfl
  | cons c cs ih =>
    rw [List.map_cons, commentsFrom, hwrite, ih]
    rfl

theorem ofData_toData (cs : List Comment) : ofData (toData cs) = .ok cs :=
  commentsFrom_map comment_recordData 0 cs

/-! ## The data as JSON -/

theorem storable_toValue {room : Nat} {o : Ordinal} (ho : o.isWritable = true) :
    Json.Storable room o.toValue := by
  cases o with
  | number n => exact .int ho
  | flag b => exact .bool b

/-- A record is three mappings inside one another. -/
theorem storable_recordData {room : Nat} {c : Comment} (hc : c.location.isWritable = true) :
    Json.Storable (room + 3) (recordData c) := by
  obtain ⟨hline, hcolumn⟩ := Bool.and_eq_true_iff.mp hc
  have hstart : Json.Storable (room + 1) (positionData c.location) := by
    refine .map [("line", c.location.line.toValue), ("column", c.location.column.toValue)]
      (by simp) ?_
    simp [storable_toValue hline, storable_toValue hcolumn]
  have hloc : Json.Storable (room + 2) (.map [(.str "start", positionData c.location)]) := by
    refine .map [("start", positionData c.location)] (by simp) ?_
    simpa using hstart
  refine .map [("type", .str c.kind.word), ("value", .str c.text),
    ("loc", .map [(.str "start", positionData c.location)])] (by simp) ?_
  simp [Json.Storable.str, hloc]

theorem storable_toData {room : Nat} {cs : List Comment}
    (hcs : ∀ c ∈ cs, c.location.isWritable = true) : Json.Storable (room + 4) (toData cs) := by
  refine .list fun x hx => ?_
  obtain ⟨c, hc, rfl⟩ := List.mem_map.mp hx
  exact storable_recordData (hcs c hc)

/-! ## The round trip -/

theorem ofJson_of_read {text : String} {cs : List Comment}
    (hread : Json.read text = .ok (toData cs)) : ofJson text = .ok cs := by
  unfold ofJson
  rw [hread]
  show (ofData (toData cs)).mapError ReadFault.ofDump = .ok cs
  rw [ofData_toData]
  rfl

/-- **The round trip.** Comments whose numbers can be written at all are read back from their JSON dump,
with truth values still truth values, and no less when every line end of the dump is made a line feed
first. -/
theorem ofJson_toJson (cs : List Comment) (indent : Option Int)
    (hcs : ∀ c ∈ cs, c.location.isWritable = true) :
    ∃ text, toJson cs indent = .ok text ∧ ofJson text = .ok cs
      ∧ ofJson (String.ofList (Text.unifyLineEnds text.toList)) = .ok cs := by
  have hstorable : Json.Storable 990 (toData cs) := storable_toData hcs
  have hread := Json.read_render hstorable (.ofIndent indent)
  refine ⟨Json.render (.ofIndent indent) (toData cs), ?_, ofJson_of_read hread, ?_⟩
  · unfold toJson writable
    rw [if_pos (List.all_eq_true.mpr hcs)]
  · have hreturn : '\r' ∉ (Json.render (.ofIndent indent) (toData cs)).toList := by
      unfold Json.render
      rw [String.toList_ofList]
      exact Json.return_notMem_write hstorable _ 0
    rw [Text.unifyLineEnds_of_notMem hreturn, String.ofList_toList]
    exact ofJson_of_read hread

/-- Two comments with a quote, controls and a character beyond the basic plane, at places one of which is a
truth value. -/
theorem ofJson_toJson_hard_text :
    let cs : List Comment :=
      [⟨"\"\\\r\n\x00\u0085\u2028𝄞", ⟨.flag true, .number (-7)⟩, .block⟩, ⟨"", .unknown, .line⟩]
    (∀ c ∈ cs, c.location.isWritable = true) ∧
      ∃ text, toJson cs (some 1) = .ok text ∧ ofJson text = .ok cs
        ∧ ofJson (String.ofList (Text.unifyLineEnds text.toList)) = .ok cs := by
  intro cs
  have hcs : ∀ c ∈ cs, c.location.isWritable = true := by decide +kernel
  exact ⟨hcs, ofJson_toJson cs (some 1) hcs⟩

end Dump

end CommentStyle
