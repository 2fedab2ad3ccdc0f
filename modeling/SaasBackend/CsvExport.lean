-- `AIUtils._export_csv` with the file that it writes. `AdminService` has the answer
-- alone; here is what a reader of the file finds in it.
import SaasBackend.AdminService
import SaasBackend.BillingSystem
import SaasBackend.Csv

open relational async

namespace saas

/-- `csv.writer(f, delimiter=";")`. -/
def semicolons : csv.Dialect where
  delimiter := ';'
  quotechar := '"'
  apart := by decide
  delimiter_inline := by decide
  quotechar_inline := by decide

/-! ## `utf-8-sig` -/

/-- The mark at the start of the file. -/
def BOM_UTF8 : ByteArray := ⟨#[0xEF, 0xBB, 0xBF]⟩

def encode_sig (text : List Char) : ByteArray := BOM_UTF8 ++ (String.ofList text).toByteArray

/-- The mark is not part of the text. -/
def decode_sig (bytes : ByteArray) : Option (List Char) :=
  let text := if (bytes.extract 0 3).data = BOM_UTF8.data then bytes.extract 3 bytes.size else bytes
  text.utf8Decode?.map Array.toList

theorem decode_encode_sig (text : List Char) : decode_sig (encode_sig text) = some text := by
  have hmark : (encode_sig text).extract 0 3 = BOM_UTF8 :=
    ByteArray.extract_append_eq_left rfl
  have hbody : (encode_sig text).extract 3 (encode_sig text).size = text.utf8Encode := by
    rw [encode_sig, String.toByteArray_ofList]
    exact ByteArray.extract_append_eq_right rfl ByteArray.size_append
  unfold decode_sig
  dsimp only
  rw [if_pos (congrArg ByteArray.data hmark), hbody, List.utf8Decode?_utf8Encode]
  simp

theorem encode_sig_inj {text text' : List Char} :
    encode_sig text = encode_sig text' ↔ text = text' := by
  refine ⟨fun h => ?_, fun h => by rw [h]⟩
  have hd := decode_encode_sig text
  rw [h, decode_encode_sig, Option.some.injEq] at hd
  exact hd.symm

/-! ## The file -/

section

-- `str()` of a value
variable (str : SqlValue → String)

/-- `"" if v is None else str(v)`. -/
def cell : SqlValue → csv.Text
  | .scalar .null => []
  | v => (str v).toList

/-- The records of the file: the names of the columns, then the rows. -/
def records (result : ResultSet) : List (List csv.Text) :=
  result.columns.map String.toList :: result.rows.map fun row => row.map (cell str)

def export_file (result : ResultSet) : ByteArray :=
  encode_sig (csv.write semicolons (records str result))

/-- What a reader finds: `utf-8-sig`, and `csv.reader` with the same delimiter. -/
def read_file (bytes : ByteArray) : Option (List (List csv.Text)) :=
  (decode_sig bytes).bind (csv.read semicolons)

theorem read_export (result : ResultSet) :
    read_file (export_file str result) = some (records str result) := by
  unfold read_file export_file
  rw [decode_encode_sig, Option.bind_some, csv.read_write]

/-- `_export_csv`: the answer, and the file `{file_id}.csv`. -/
def AIUtils.export_csv (engine : SqlEngine) (sql : String) : M (SqlResult × ByteArray) := do
  let file_id ← Proc.attempt fun w => .ok (w.uuids, { w with uuids := w.uuids + 1 })
  let result ← Proc.query fun w => engine.execute w.db sql
  pure (.csv result.rows.length result.columns file_id, export_file str result)

/-- The answer is the one of the back office. -/
theorem AIUtils.export_csv_answer (engine : SqlEngine) (sql : String) (w : World) :
    (ai_repo.export_csv engine sql).run w =
      match (AIUtils.export_csv str engine sql).run w with
      | (.ok (answer, _), w') => (.ok answer, w')
      | (.error e, w') => (.error e, w') := by
  simp only [ai_repo.export_csv, AIUtils.export_csv, Proc.run_bind, Proc.run_attempt,
    Proc.run_query]
  cases engine.execute w.db sql <;> rfl

theorem export_csv_ok {engine : SqlEngine} {sql : String} {w w' : World} {answer : SqlResult}
    {file : ByteArray}
    (hrun : (AIUtils.export_csv str engine sql).run w = (.ok (answer, file), w')) :
    ∃ result, engine.execute w.db sql = .ok result ∧
      answer = .csv result.rows.length result.columns w.uuids ∧ file = export_file str result := by
  simp only [AIUtils.export_csv, Proc.run_bind, Proc.run_attempt, Proc.run_query] at hrun
  rcases hx : engine.execute w.db sql with e | result
  · rw [hx] at hrun
    cases hrun
  · rw [hx] at hrun
    cases hrun
    exact ⟨result, rfl, rfl, rfl⟩

/-- An export is answered as the back office answers it. Whatever is in the names and the
cells, its file reads back to the columns of the answer and then the rows of the query,
each cell as its text and NULL as nothing; there are as many rows as the answer says. So
two exports with the same file answer alike, and their queries gave the same cells. -/
theorem exported_file_reads_back {engine : SqlEngine} {sql : String} {w w' : World}
    {n file_id : Nat} {columns : List String} {file : ByteArray}
    (hrun : (AIUtils.export_csv str engine sql).run w = (.ok (.csv n columns file_id, file), w')) :
    (ai_repo.export_csv engine sql).run w = (.ok (.csv n columns file_id), w') ∧
    ∃ result, engine.execute w.db sql = .ok result ∧ columns = result.columns ∧
      read_file file = some (columns.map String.toList ::
        result.rows.map fun row => row.map (cell str)) ∧ n = result.rows.length ∧
      ∀ (engine' : SqlEngine) (sql' : String) (v v' : World) (n' file_id' : Nat)
        (columns' : List String),
        (AIUtils.export_csv str engine' sql').run v =
          (.ok (.csv n' columns' file_id', file), v') →
        ∃ result', engine'.execute v.db sql' = .ok result' ∧ columns' = columns ∧ n' = n ∧
          (result'.rows.map fun row => row.map (cell str)) =
            result.rows.map fun row => row.map (cell str) := by
  have hanswer := AIUtils.export_csv_answer str engine sql w
  rw [hrun] at hanswer
  obtain ⟨result, hx, ha, rfl⟩ := export_csv_ok str hrun
  cases ha
  refine ⟨hanswer, result, hx, rfl, read_export str result, rfl, ?_⟩
  intro engine' sql' v v' n' file_id' columns' hrun'
  obtain ⟨result', hx', ha', hfile⟩ := export_csv_ok str hrun'
  cases ha'
  have hrecords : records str result = records str result' :=
    csv.write_inj.mp (encode_sig_inj.mp hfile)
  have hcells := (List.cons.inj hrecords).2
  refine ⟨result', hx', ?_, ?_, hcells.symm⟩
  · exact (List.map_injective_iff.mpr (fun _ _ h => String.toList_injective h)
      (List.cons.inj hrecords).1).symm
  · simpa using (congrArg List.length hcells).symm

end

namespace Sample

/-- The texts as they are. -/
def str_text : SqlValue → String
  | .scalar (.text s) => s
  | _ => "?"

/-- A store whose one answer has every character that a CSV file is about. -/
def notes_engine : SqlEngine where
  execute _ _ := .ok ⟨["note; \"draft\"", "by"],
    [[.text "one\r\ntwo", .scalar .null], [.text "\"", .text ";"]]⟩
  view_columns _ := []
  isalnum _ := false
  float digits := digits

end Sample

open Sample in
/-- The file of a query with delimiters, quotes, line breaks and NULL in its answer. -/
theorem exported_file_reads_back_sample :
    read_file (export_file str_text ⟨["note; \"draft\"", "by"],
        [[.text "one\r\ntwo", .scalar .null], [.text "\"", .text ";"]]⟩) =
      some [["note; \"draft\"".toList, "by".toList],
        ["one\r\ntwo".toList, []], ["\"".toList, ";".toList]] := by
  have hrun : (AIUtils.export_csv str_text notes_engine "").run world =
      (.ok (.csv 2 ["note; \"draft\"", "by"] world.uuids, _), _) := rfl
  obtain ⟨_, result, hx, _, hread, _⟩ := exported_file_reads_back str_text hrun
  cases hx
  exact hread

end saas
