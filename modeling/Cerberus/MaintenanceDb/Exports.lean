import Cerberus.Foundation.Csv
import Cerberus.Foundation.Json
import Cerberus.Gateway.Model
import Cerberus.MaintenanceDb.Latest

namespace Cerberus.MaintenanceDb

open Std Foundation Foundation.Bytes Foundation.Wire Gateway

def csvHeader : ByteString :=
  lit ("inference_id,session_id,prompt,result_summary,status,timestamp," ++
    "generation_time_ms,width,height,num_steps,guidance_scale," ++
    "encoder_name,post_processor_name,gpu_backend_name," ++
    "text_encode_used_npu,denoise_used_gpu,vae_decode_used_gpu," ++
    "post_process_used_npu,unet_denoise_used_npu,npu_cheap_ops_percent," ++
    "recovery_attempts,node_id\n")

def csvColumns : List (String × Bool) := [
  ("inference_id", false),
  ("session_id", false),
  ("prompt", true),
  ("result_summary", true),
  ("status", false),
  ("timestamp", false),
  ("generation_time_ms", false),
  ("width", false),
  ("height", false),
  ("num_steps", false),
  ("guidance_scale", false),
  ("encoder_name", false),
  ("post_processor_name", false),
  ("gpu_backend_name", false),
  ("text_encode_used_npu", false),
  ("denoise_used_gpu", false),
  ("vae_decode_used_gpu", false),
  ("post_process_used_npu", false),
  ("unet_denoise_used_npu", false),
  ("npu_cheap_ops_percent", false),
  ("recovery_attempts", false),
  ("node_id", false)]

/-- The fields of a record as they are written; one that is absent is empty. -/
def csvRow (m : Fields) : List Csv.Cell := csvColumns.map (fun c ↦ ⟨c.2, m.text c.1⟩)

/-- The file that `export_inference_csv` writes. -/
def inferenceCsv (records : List Fields) : ByteString :=
  csvHeader ++ Csv.fileText (records.map csvRow)

def InferenceRecord.fields (r : InferenceRecord) : List ByteString := (r.entries.take 22).map Prod.snd

def InferenceRecord.names : List ByteString :=
  (InferenceRecord.entries {}).take 22 |>.map (fun e ↦ lit e.1)

/-- The one file is a JSON text of the stored maps, in the order of their keys, and the other a
table with a header and the same records. -/
structure Tables.ExportsFaithfully (t : Tables) : Prop where
  json : Json.Text (Json.ArrayText (Json.ObjectText Json.StringText))
    (t.inferenceRecords.values.map (·.toList)) (inferenceJson t.inferenceRecords.values)
  csv : Csv.FileText
    (InferenceRecord.names :: t.inferenceRecords.values.map (fun m ↦ (InferenceRecord.fromMap m).fields))
    (inferenceCsv t.inferenceRecords.values)

/-- Nothing that is stored needs an escape in JSON; the two texts between quotes have no quote in
them, and the other fields of a line no quote, comma or line break. -/
structure Tables.Exportable (t : Tables) : Prop where
  plain : ∀ m ∈ t.inferenceRecords.values, ∀ e ∈ m.toList, Json.Plain e.1 ∧ Json.Plain e.2
  kept : ∀ m ∈ t.inferenceRecords.values, ∀ c ∈ csvRow m, c.Kept

def headerRow : List Csv.Cell := InferenceRecord.names.map (fun name ↦ ⟨false, name⟩)

theorem csvHeader_eq : csvHeader = Csv.rowText headerRow ++ [10] := by decide +kernel

theorem names_textData : InferenceRecord.names.all (·.all (fun b ↦ decide (Csv.TextData b))) := by
  decide +kernel

theorem headerRow_kept : ∀ c ∈ headerRow, c.Kept := by
  intro c hc
  obtain ⟨name, hname, rfl⟩ := List.mem_map.mp hc
  intro b hb
  have hall := List.all_eq_true.mp (List.all_eq_true.mp names_textData name hname) b hb
  exact of_decide_eq_true hall

theorem headerRow_values : headerRow.map (·.value) = InferenceRecord.names := by
  simp [headerRow, Function.comp_def]

theorem csvRow_values (m : Fields) :
    (csvRow m).map (·.value) = (InferenceRecord.fromMap m).fields := rfl

theorem inferenceCsv_eq (records : List Fields) :
    inferenceCsv records = Csv.fileText (headerRow :: records.map csvRow) := by
  rw [inferenceCsv, csvHeader_eq, Csv.fileText_cons, List.append_assoc]
  rfl

theorem inferenceJson_eq (records : List Fields) :
    inferenceJson records = Json.printedObjects (records.map (·.toList)) := by
  have hopen : lit "[\n" = [91, 10] := by decide
  have hclose : lit "\n]\n" = [10, 93, 10] := by decide
  have hbreak : lit ",\n" = [44, 10] := by decide
  have hobject : lit "  \x7b\n" = [32, 32, 123, 10] := by decide
  have hend : lit "\n  \x7d" = [10, 32, 32, 125] := by decide
  have hname : lit "    \"" = [32, 32, 32, 32, 34] := by decide
  have hcolon : lit "\": \"" = [34, 58, 32, 34] := by decide
  have hquote : lit "\"" = [34] := by decide
  simp [inferenceJson, Json.printedObjects, Json.printed, Json.printedObject, Json.block,
    Json.member, Json.quoted, Function.comp_def, hopen, hclose, hbreak, hobject, hend, hname, hcolon,
    hquote]

theorem json_iff (records : List Fields) :
    Json.Text (Json.ArrayText (Json.ObjectText Json.StringText)) (records.map (·.toList))
      (inferenceJson records) ↔ ∀ m ∈ records, ∀ e ∈ m.toList, Json.Plain e.1 ∧ Json.Plain e.2 := by
  rw [inferenceJson_eq, Json.text_printedObjects_iff, List.forall_mem_map]

theorem csv_iff (records : List Fields) :
    Csv.FileText
      (InferenceRecord.names :: records.map (fun m ↦ (InferenceRecord.fromMap m).fields))
      (inferenceCsv records) ↔ ∀ m ∈ records, ∀ c ∈ csvRow m, c.Kept := by
  have hrows : ∀ row ∈ headerRow :: records.map csvRow, row ≠ [] := by
    rw [List.forall_mem_cons, List.forall_mem_map]
    exact ⟨by decide +kernel, fun m _ ↦ by simp [csvRow, csvColumns]⟩
  have hfile := Csv.fileText_iff (by simp) hrows
  have hvalues : (fun row ↦ row.map (·.value)) ∘ csvRow = fun m ↦ (InferenceRecord.fromMap m).fields :=
    funext csvRow_values
  rw [← inferenceCsv_eq, List.forall_mem_cons, List.forall_mem_map, List.map_cons, List.map_map,
    hvalues, headerRow_values] at hfile
  exact hfile.trans (and_iff_right headerRow_kept)

/-- The exports are faithful just where nothing that is stored needs the encoding they leave out. -/
theorem exportsFaithfully_iff (t : Tables) : t.ExportsFaithfully ↔ t.Exportable := by
  constructor
  · rintro ⟨htext, hfile⟩
    exact ⟨(json_iff _).mp htext, (csv_iff _).mp hfile⟩
  · rintro ⟨hplain, hkept⟩
    exact ⟨(json_iff _).mpr hplain, (csv_iff _).mpr hkept⟩

def quotedPrompt : InferenceRecord where
  inferenceId := lit "1"
  prompt := lit "a \"red\" fox"

/-- One record is stored, whose prompt has a word between quotes. -/
theorem quotedPrompt_garbled : ¬∀ t : Tables, t.ExportsFaithfully := by
  intro h
  let t : Tables := { inferenceRecords := (∅ : Table).insert (lit "1") quotedPrompt.toMap }
  have hmem : quotedPrompt.toMap ∈ t.inferenceRecords.values := by
    rw [values_eq, List.mem_map]
    refine ⟨(lit "1", quotedPrompt.toMap), ?_, rfl⟩
    rw [ExtTreeMap.mem_toList_iff_getElem?_eq_some]
    exact ExtTreeMap.getElem?_insert_self
  have hprompt : quotedPrompt.toMap.text "prompt" = lit "a \"red\" fox" := by
    have hnodup : (quotedPrompt.entries.map Prod.fst).Nodup := by simp [InferenceRecord.entries]
    have hget : quotedPrompt.toMap[lit "prompt"]? = some quotedPrompt.prompt :=
      get_assign hnodup (by simp [InferenceRecord.entries])
    rw [Fields.text, hget]
    rfl
  have hcell : (⟨true, quotedPrompt.toMap.text "prompt"⟩ : Csv.Cell) ∈ csvRow quotedPrompt.toMap :=
    List.mem_map_of_mem (f := fun c ↦ (⟨c.2, quotedPrompt.toMap.text c.1⟩ : Csv.Cell))
      (a := ("prompt", true)) (by simp [csvColumns])
  have hkept := (csv_iff _).mp (h t).csv _ hmem _ hcell
  rw [hprompt] at hkept
  exact absurd hkept (by decide +kernel)

end Cerberus.MaintenanceDb
