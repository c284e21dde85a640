import Cerberus.Foundation.JsonBytes
import Cerberus.Inference.Gate
import Cerberus.MaintenanceDb.Codec

namespace Cerberus.Inference

open Std Foundation Foundation.Bytes Foundation.Json Foundation.Scan Foundation.Trace
  Foundation.Wire Http MaintenanceDb

def headLines (t : ByteString) : Option (List ByteString × ByteString) :=
  match _h : cutWord crlf t with
  | none => none
  | some ([], rest) => some ([], rest)
  | some (b :: line, rest) => (headLines rest).map (fun e ↦ ((b :: line) :: e.1, e.2))
termination_by t.length
decreasing_by
  have heq := congrArg List.length (cutWord_eq_some (p := b :: line) (r := rest) _h)
  simp only [crlf, List.length_append, List.length_cons, List.length_nil] at heq
  omega

structure Reply where
  statusCode : Nat
  contentType : ByteString
  closes : Bool
  body : ByteString

def headerOf (lines : List ByteString) (name : String) : Option ByteString :=
  (lastText lines (lit name)).map (·.dropWhile Http.isBlank)

/-- A client reads the status line, the headers, and as many bytes as are announced. -/
def readReply (t : ByteString) : Option (Reply × ByteString) := do
  let (lines, rest) ← headLines t
  let (_, status) ← lines.head? >>= cut space
  let (code, _) ← cut space status
  let statusCode ← leadingDigits code
  let contentType ← headerOf lines.tail "content-type"
  let connection ← headerOf lines.tail "connection"
  let length ← headerOf lines.tail "content-length" >>= leadingDigits
  if rest.length < length then none
  else
    some (⟨statusCode, contentType, connection = lit "close", rest.take length⟩, rest.drop length)

def readReplies : Nat → ByteString → Option (List Reply)
  | 0, t => if t = [] then some [] else none
  | n + 1, t => do
    let (reply, rest) ← readReply t
    (readReplies n rest).map (reply :: ·)

def HttpResponse.reply (r : HttpResponse) : Reply :=
  ⟨r.statusCode.toNat, r.contentType, r.closeConnection, r.body⟩

structure HttpResponse.Sendable (r : HttpResponse) : Prop where
  line : 10 ∉ r.contentType
  blank : r.contentType.dropWhile Http.isBlank = r.contentType

def HttpResponse.lines (r : HttpResponse) : List ByteString := [
  lit "HTTP/1.1 " ++ decimal r.statusCode.toNat ++ lit " " ++ lit (reason r.statusCode),
  lit "Content-Type: " ++ r.contentType,
  lit "Content-Length: " ++ decimal r.body.length,
  lit "Connection: " ++ (if r.closeConnection then lit "close" else lit "keep-alive"),
  lit "Server: Cerberus/1.0.0",
  lit "Access-Control-Allow-Origin: *",
  lit "Access-Control-Allow-Methods: GET, POST, OPTIONS",
  lit "Access-Control-Allow-Headers: Content-Type, Authorization"]

variable {r : HttpResponse} {rest : ByteString}

theorem render_eq : r.render = r.lines.flatMap (· ++ crlf) ++ (crlf ++ r.body) := by
  delta HttpResponse.render HttpResponse.lines
  simp only [List.flatMap_cons, List.flatMap_nil, List.append_assoc, List.nil_append]

theorem headLines_append {lines : List ByteString} (h : ∀ line ∈ lines, line ≠ [] ∧ 10 ∉ line) :
    headLines (lines.flatMap (· ++ crlf) ++ (crlf ++ rest)) = some (lines, rest) := by
  have hcut (line rest : ByteString) (hline : 10 ∉ line) :
      cutWord crlf (line ++ crlf ++ rest) = some (line, rest) := by
    refine cutWord_crlf line (fun hinside ↦ hline ?_) rest
    exact hinside.subset (by decide)
  induction lines with
  | nil =>
    have hhere : cutWord crlf (crlf ++ rest) = some ([], rest) := hcut [] rest (by simp)
    rw [List.flatMap_nil, List.nil_append, headLines]
    split <;> simp_all
  | cons line lines ih =>
    obtain ⟨⟨hne, hline⟩, hlines⟩ := List.forall_mem_cons.mp h
    obtain ⟨b, line, rfl⟩ := List.exists_cons_of_ne_nil hne
    have hhere := hcut _ (lines.flatMap (· ++ crlf) ++ (crlf ++ rest)) hline
    rw [List.flatMap_cons, List.append_assoc, headLines]
    split <;> simp_all

theorem lines_framed (h : r.Sendable) : ∀ line ∈ r.lines, line ≠ [] ∧ 10 ∉ line := by
  have hdecimal (n : Nat) : 10 ∉ decimal n := fun hmem ↦ absurd (isDigit_decimal hmem) (by decide)
  have hreason (code : UInt16) : 10 ∉ lit (reason code) := by
    unfold reason
    split_ifs <;> decide
  have hclose : 10 ∉ (if r.closeConnection then lit "close" else lit "keep-alive") := by
    split <;> decide
  have hfixed : ∀ text ∈ ["HTTP/1.1 ", " ", "Content-Type: ", "Content-Length: ", "Connection: ",
      "Server: Cerberus/1.0.0", "Access-Control-Allow-Origin: *",
      "Access-Control-Allow-Methods: GET, POST, OPTIONS",
      "Access-Control-Allow-Headers: Content-Type, Authorization"],
      lit text ≠ [] ∧ 10 ∉ lit text := by
    decide +kernel
  simp only [List.forall_mem_cons] at hfixed
  simp [HttpResponse.lines, hdecimal, hreason, hclose, hfixed, h.line]

theorem header_line {name : ByteString} (h : Http.colon ∉ name) (value : ByteString) :
    header (name ++ Http.colon :: value) = some (name.map toLower, value) := by
  rw [header, cut_append h]
  rfl

theorem filterMap_header (r : HttpResponse) : r.lines.tail.filterMap header = [
    (lit "content-type", 32 :: r.contentType),
    (lit "content-length", 32 :: decimal r.body.length),
    (lit "connection", 32 :: (if r.closeConnection then lit "close" else lit "keep-alive")),
    (lit "server", 32 :: lit "Cerberus/1.0.0"),
    (lit "access-control-allow-origin", 32 :: lit "*"),
    (lit "access-control-allow-methods", 32 :: lit "GET, POST, OPTIONS"),
    (lit "access-control-allow-headers", 32 :: lit "Content-Type, Authorization")] := by
  have hline (line name lower : String) (value : ByteString)
      (h : lit line = lit name ++ [Http.colon, 32] ∧ Http.colon ∉ lit name ∧
        (lit name).map toLower = lit lower) :
      header (lit line ++ value) = some (lit lower, 32 :: value) := by
    obtain ⟨hline, hcolon, hlower⟩ := h
    rw [hline, List.append_assoc, ← hlower]
    exact header_line hcolon _
  have htype := hline "Content-Type: " "Content-Type" "content-type" r.contentType
    (by decide +kernel)
  have hlength := hline "Content-Length: " "Content-Length" "content-length"
    (decimal r.body.length) (by decide +kernel)
  have hconnection := hline "Connection: " "Connection" "connection"
    (if r.closeConnection then lit "close" else lit "keep-alive") (by decide +kernel)
  have hserver : header (lit "Server: Cerberus/1.0.0") =
      some (lit "server", 32 :: lit "Cerberus/1.0.0") := by decide +kernel
  have horigin : header (lit "Access-Control-Allow-Origin: *") =
      some (lit "access-control-allow-origin", 32 :: lit "*") := by decide +kernel
  have hmethods : header (lit "Access-Control-Allow-Methods: GET, POST, OPTIONS") =
      some (lit "access-control-allow-methods", 32 :: lit "GET, POST, OPTIONS") := by
    decide +kernel
  have hheaders : header (lit "Access-Control-Allow-Headers: Content-Type, Authorization") =
      some (lit "access-control-allow-headers", 32 :: lit "Content-Type, Authorization") := by
    decide +kernel
  simp only [HttpResponse.lines, List.tail_cons, List.filterMap_cons, List.filterMap_nil, htype,
    hlength, hconnection, hserver, horigin, hmethods, hheaders]

theorem headerOf_lines (h : r.Sendable) :
    headerOf r.lines.tail "content-type" = some r.contentType ∧
    headerOf r.lines.tail "content-length" = some (decimal r.body.length) ∧
    headerOf r.lines.tail "connection" =
      some (if r.closeConnection then lit "close" else lit "keep-alive") := by
  have hdigits : (decimal r.body.length).dropWhile Http.isBlank = decimal r.body.length := by
    rw [List.dropWhile_eq_self_iff]
    intro hpos hblank
    have hdigit := isDigit_decimal (List.getElem_mem hpos)
    simp only [Http.isBlank, Bool.or_eq_true, beq_iff_eq] at hblank
    rcases hblank with hb | hb
    · rw [hb] at hdigit
      exact absurd hdigit (by decide)
    · rw [hb] at hdigit
      exact absurd hdigit (by decide)
  have hclose : (if r.closeConnection then lit "close" else lit "keep-alive").dropWhile
      Http.isBlank = if r.closeConnection then lit "close" else lit "keep-alive" := by
    split <;> decide
  have hskip (v : ByteString) : (32 :: v).dropWhile Http.isBlank = v.dropWhile Http.isBlank := rfl
  simp [headerOf, lastText, filterMap_header, lit_injective.eq_iff, hskip, hdigits, hclose, h.blank]

theorem readReply_render (h : r.Sendable) (rest : ByteString) :
    readReply (r.render ++ rest) = some (r.reply, rest) := by
  have hlines : headLines (r.render ++ rest) = some (r.lines, r.body ++ rest) := by
    rw [render_eq, List.append_assoc, List.append_assoc]
    exact headLines_append (lines_framed h)
  have hfirst : r.lines.head? = some (lit "HTTP/1.1" ++
      space :: (decimal r.statusCode.toNat ++ space :: lit (reason r.statusCode))) := by
    have hversion : lit "HTTP/1.1 " = lit "HTTP/1.1" ++ [space] := by decide
    have hspace : lit " " = [space] := by decide
    simp [HttpResponse.lines, hversion, hspace]
  have hdecimal : space ∉ decimal r.statusCode.toNat :=
    fun hmem ↦ absurd (isDigit_decimal hmem) (by decide)
  have hversion : cut space (lit "HTTP/1.1" ++
      space :: (decimal r.statusCode.toNat ++ space :: lit (reason r.statusCode))) =
      some (lit "HTTP/1.1", decimal r.statusCode.toNat ++ space :: lit (reason r.statusCode)) :=
    cut_append (by decide) _
  have hstatus := cut_append hdecimal (lit (reason r.statusCode))
  obtain ⟨htype, hlength, hconnection⟩ := headerOf_lines h
  have hcloses : lit "keep-alive" ≠ lit "close" := by decide
  simp [readReply, hlines, hfirst, hversion, hstatus, leadingDigits_decimal, htype, hlength,
    hconnection, hcloses, HttpResponse.reply]

/-- Answers that are written one after the other are read one after the other. -/
theorem readReplies_render {rs : List HttpResponse} (h : ∀ r ∈ rs, r.Sendable) :
    readReplies rs.length (rs.flatMap (·.render)) = some (rs.map (·.reply)) := by
  induction rs with
  | nil => rfl
  | cons r rs ih =>
    obtain ⟨hr, hrs⟩ := List.forall_mem_cons.mp h
    rw [List.flatMap_cons, List.length_cons, readReplies, readReply_render hr]
    simp [ih hrs]

/-- Two refusals on one stream. -/
theorem readReplies_render_two :
    readReplies 2 ((respond 400 (lit "\x7b\x7d")).render ++ InferenceServer.badRequest.render) =
      some [(respond 400 (lit "\x7b\x7d")).reply, InferenceServer.badRequest.reply] := by
  have htype : 10 ∉ lit "application/json" := by decide
  have hsendable : ∀ r ∈ [respond 400 (lit "\x7b\x7d"), InferenceServer.badRequest],
      r.Sendable := by
    simp only [List.forall_mem_cons]
    exact ⟨⟨htype, rfl⟩, ⟨htype, rfl⟩, by simp⟩
  have hread := readReplies_render hsendable
  rw [List.flatMap_cons, List.flatMap_singleton] at hread
  exact hread

section bodies

variable {text : ByteString}

def fixed (name value : String) (h : Plain (lit name)) (hv : Plain (lit value)) : Written :=
  .string name h (lit value) hv

theorem auditUnavailable_isText (h : Plain text) : IsText (auditUnavailable text).body := by
  have hbody : (auditUnavailable text).body = enclosed 123 125 Written.member
      (fixed "error" "inference_audit_unavailable" (plain_lit rfl) (plain_lit rfl) ::
        if text.isEmpty then [] else [.string "reason" (plain_lit rfl) text h]) := by
    unfold auditUnavailable respond
    dsimp only
    split
    · rfl
    · simp [enclosed, commas, List.intercalate, Written.member, fixed, Written.string, Json.quoted]
      rfl
  rw [hbody]
  exact isText_written _

theorem rbpcRequired_isText {v : ByteString} (h : StringText v (Json.quoted text)) :
    IsText (rbpcRequired text).body := by
  refine cast (congrArg IsText ?_) (isText_written [
    fixed "error" "rbpc_required" (plain_lit rfl) (plain_lit rfl),
    ⟨lit "detail", .string v, _, plain_lit rfl, h⟩])
  simp [rbpcRequired, respond, enclosed, commas, List.intercalate, Written.member, fixed,
    Written.string, Json.quoted]
  rfl

theorem rbpcFailed_isText (h : Plain text) : IsText (rbpcFailed text).body := by
  have hbody : (rbpcFailed text).body = enclosed 123 125 Written.member
      (fixed "error" "rbpc_failed" (plain_lit rfl) (plain_lit rfl) ::
        .string "detail" (plain_lit rfl) text h ::
        if saysBurned text then [.bool "burned" (plain_lit rfl) true] else []) := by
    unfold rbpcFailed respond
    dsimp only
    split
    · simp [enclosed, commas, List.intercalate, Written.member, fixed, Written.string, Written.bool,
        Json.quoted]
      rfl
    · simp [enclosed, commas, List.intercalate, Written.member, fixed, Written.string, Json.quoted]
      rfl
  rw [hbody]
  exact isText_written _

theorem numeral_decimal (n : Nat) : Numeral (decimal n) := numeral_signedDecimal n

theorem cleared_isText (cleared : Bool) (before : Nat) : IsText (lit "\x7b\"cleared\":" ++
    (if cleared then lit "true" else lit "false") ++ lit ",\"records_before\":" ++ decimal before ++
    lit "\x7d") := by
  refine cast (congrArg IsText ?_) (isText_written [
    .bool "cleared" (plain_lit rfl) cleared,
    .number "records_before" (plain_lit rfl) _ (numeral_decimal before)])
  simp [enclosed, commas, List.intercalate, Written.member, Written.bool, Written.number,
    Json.quoted]
  rfl

theorem exported_isText {F : Type} {host : Host F} {m : Moment F} (configured : Bool)
    (h : Plain (InferenceServer.exportPath host m)) :
    IsText (InferenceServer.exported host m configured).body := by
  refine cast (congrArg IsText ?_) (isText_written [
    .bool "exported" (plain_lit rfl) true,
    fixed "format" "json" (plain_lit rfl) (plain_lit rfl),
    .string "path" (plain_lit rfl) _ h,
    .bool "rbpc_enforced" (plain_lit rfl) configured])
  simp [InferenceServer.exported, respond, enclosed, commas, List.intercalate, Written.member,
    fixed, Written.string, Written.bool, Json.quoted]
  rfl

def entry (e : ByteString × ByteString) (h : Plain e.1 ∧ Plain e.2) : Written :=
  ⟨e.1, .string e.2, Json.quoted e.2, h.1, h.2.quoted⟩

theorem statsBody_isText {stats : Fields} (configured : Bool) (hne : stats.toList ≠ [])
    (h : ∀ e ∈ stats.toList, Plain e.1 ∧ Plain e.2) : IsText (statsBody stats configured) := by
  refine cast (congrArg IsText ?_) (isText_written (stats.toList.pmap entry h ++
    [.bool "rbpc_configured" (plain_lit rfl) configured]))
  have hcomma : lit "," = [44] := by decide
  have hquote : lit "\"" = [34] := by decide
  have hcolon : lit "\":\"" = [34, 58, 34] := by decide
  have hentries : commas Written.member (stats.toList.pmap entry h) =
      (lit ",").intercalate (stats.toList.map (fun e ↦
        lit "\"" ++ e.1 ++ lit "\":\"" ++ e.2 ++ lit "\"")) := by
    rw [commas, List.map_pmap, hcomma]
    simp [List.pmap_eq_map, entry, Written.member, Json.quoted, hquote, hcolon]
  rw [enclosed, commas_append_single (by simpa using hne), hentries, statsBody]
  simp [Written.member, Written.bool, Json.quoted]
  rfl

theorem health_isText {uptime : Int} {served : Nat} {gpu npu : ByteString} (hgpu : Numeral gpu)
    (hnpu : Numeral npu) : IsText (lit "\x7b\"status\":\"ok\",\"uptime_seconds\":" ++
      signedDecimal uptime ++ lit ",\"requests_served\":" ++ decimal served ++
      lit ",\"gpu_util\":" ++ gpu ++ lit ",\"npu_util\":" ++ npu ++ lit "\x7d") := by
  refine cast (congrArg IsText ?_) (isText_written [
    fixed "status" "ok" (plain_lit rfl) (plain_lit rfl),
    .number "uptime_seconds" (plain_lit rfl) _ (numeral_signedDecimal uptime),
    .number "requests_served" (plain_lit rfl) _ (numeral_decimal served),
    .number "gpu_util" (plain_lit rfl) _ hgpu,
    .number "npu_util" (plain_lit rfl) _ hnpu])
  simp [enclosed, commas, List.intercalate, Written.member, fixed, Written.string, Written.number,
    Json.quoted]
  rfl

def listed (id text : ByteString) (h : StringText id text) : List Written := [
  ⟨lit "id", .string id, text, plain_lit rfl, h⟩,
  fixed "object" "model" (plain_lit rfl) (plain_lit rfl),
  fixed "owned_by" "cerberus" (plain_lit rfl) (plain_lit rfl)]

theorem ModelEntry.toJson_eq (e : ModelEntry) (h : escaper.Covers e.id) :
    e.toJson = enclosed 123 125 Written.member (listed e.id _ (Escaper.string_enquote h)) := by
  simp [ModelEntry.toJson, escape_eq, enclosed, commas, List.intercalate, Written.member, listed,
    fixed, Written.string, Escaper.enquote, Json.quoted]
  rfl

theorem listModelsJson_isText {models : List ModelEntry}
    (h : ∀ e ∈ models, Utf8 e.id ∧ Printable e.id) : IsText (listModelsJson models) := by
  let entries : List ModelEntry :=
    if models.isEmpty then [{ id := lit "cerberus-v1", filePath := [] }] else models
  have hcovers : ∀ e ∈ entries, escaper.Covers e.id := by
    intro e he
    by_cases hempty : models.isEmpty = true
    · obtain rfl : e = { id := lit "cerberus-v1", filePath := [] } := by
        simpa [entries, hempty] using he
      exact (covers_iff (utf8_lit _)).mpr (by decide +kernel)
    · have hmem : e ∈ models := by simpa [entries, hempty] using he
      exact (covers_iff (h e hmem).1).mpr (h e hmem).2
  have hitems : ∀ e ∈ entries, ValueText (.object [(lit "id", .string e.id),
      (lit "object", .string (lit "model")), (lit "owned_by", .string (lit "cerberus"))])
      e.toJson := by
    intro e he
    rw [e.toJson_eq (hcovers e he)]
    exact valueText_written (listed e.id _ (Escaper.string_enquote (hcovers e he)))
  refine cast (congrArg IsText ?_) (isText_written [
    fixed "object" "list" (plain_lit rfl) (plain_lit rfl),
    ⟨lit "data", _, _, plain_lit rfl, valueText_items hitems⟩])
  have hcomma : lit "," = [44] := by decide
  have hentries : (lit ",").intercalate (models.map (·.toJson)) ++ (if models.isEmpty then
      lit "\x7b\"id\":\"cerberus-v1\",\"object\":\"model\",\"owned_by\":\"cerberus\"\x7d" else []) =
      commas ModelEntry.toJson entries := by
    cases models with
    | nil => decide +kernel
    | cons e l =>
      rw [hcomma]
      exact List.append_nil _
  rw [listModelsJson, List.append_assoc (lit "\x7b\"object\":\"list\",\"data\":["), hentries]
  simp [enclosed, commas, List.intercalate, Written.member, fixed, Written.string, Json.quoted]
  rfl

def shown (r : InferenceRecord) : List ByteString :=
  [r.inferenceId, r.timestamp, r.status, r.generationTimeMs, r.prompt.take 120]

def historyValue (r : InferenceRecord) : Value := .object [
  (lit "inference_id", .string r.inferenceId),
  (lit "timestamp", .string r.timestamp),
  (lit "status", .string r.status),
  (lit "generation_time_ms", .string r.generationTimeMs),
  (lit "prompt", .string (r.prompt.take 120))]

theorem historyLine_text {r : InferenceRecord} (h : ∀ v ∈ shown r, Plain v) :
    ValueText (historyValue r) ((historyLine r).drop 2) := by
  simp only [shown, List.forall_mem_cons] at h
  obtain ⟨hid, htime, hstatus, hms, hprompt, -⟩ := h
  refine cast (congrArg (ValueText (historyValue r)) ?_) (valueText_written [
    .string "inference_id" (plain_lit rfl) _ hid,
    .string "timestamp" (plain_lit rfl) _ htime,
    .string "status" (plain_lit rfl) _ hstatus,
    .string "generation_time_ms" (plain_lit rfl) _ hms,
    .string "prompt" (plain_lit rfl) _ hprompt])
  simp [historyLine, enclosed, commas, List.intercalate, Written.member, Written.string,
    Json.quoted]
  rfl

theorem historyJson_isText {records : List InferenceRecord}
    (h : ∀ r ∈ records, ∀ v ∈ shown r, Plain v) : IsText (historyJson records) := by
  have hopen : lit "[\n" = [91, 10] := by decide
  have hclose : lit "\n]" = [10, 93] := by decide
  have hbreak : lit ",\n" = [44, 10] := by decide
  have hbreaks : Space [10] ∧ Space [32, 32] ∧ Space [10, 32, 32] := by decide +kernel
  obtain ⟨hline, hindent, hboth⟩ := hbreaks
  by_cases hne : records = []
  · subst hne
    refine isText_of_value (valueText_array.mpr ⟨[10], [], [10], hline, .nil, hline, ?_⟩)
    decide
  · have htexts : ∀ r ∈ records, ValueText (historyValue r) ((historyLine r).drop 2) :=
      fun r hr ↦ historyLine_text (h r hr)
    obtain ⟨i, hitems, hblock⟩ := items_block hindent hne htexts
    have hlines : (lit ",\n").intercalate (records.map historyLine) = [32, 32] ++ i := by
      rw [hbreak, ← hblock]
      rfl
    refine isText_of_value (valueText_array.mpr
      ⟨[10, 32, 32], i, [10], hboth, items_map.mpr hitems, hline, ?_⟩)
    rw [historyJson, hlines, hopen, hclose]
    simp

theorem answer_text_plain (a : Rbpc.Answer) : Plain a.text := by
  have hnumber (n : Int) : Plain (signedDecimal n) :=
    plain_numeric (numeral_signedDecimal n).numeric
  cases a with
  | ok => exact ⟨[], rfl, by simp⟩
  | alreadyRegistered =>
    exact (plain_lit rfl).append (plain_lit rfl)
  | emptyPin n =>
    exact ((plain_lit rfl).append (hnumber n)).append (plain_lit rfl)
  | pinFailed n =>
    exact ((plain_lit rfl).append (hnumber n)).append (plain_lit rfl)
  | pinRefused n =>
    exact ((plain_lit rfl).append (hnumber n)).append (plain_lit rfl)
  | wordRefused n =>
    exact ((plain_lit rfl).append (hnumber n)).append (plain_lit rfl)
  | _ => exact plain_lit rfl

theorem count_mem (host : Gateway.Host) (db : LocalMaintenanceDB) :
    lit "count" ∈ Gateway.inferenceStats host db := by
  unfold Gateway.inferenceStats
  dsimp only
  split
  · simp [assign, ExtTreeMap.mem_insertMany_list]
  · simp [assign, ExtTreeMap.mem_insertMany_list]

def PlainEntry (k v : ByteString) : Prop := Plain k ∧ Plain v

theorem inferenceStats_each {host : Gateway.Host} (db : LocalMaintenanceDB)
    (htotal : ∀ times, Plain (host.totalMs times))
    (haverage : ∀ times n, Plain (host.averageMs times n)) :
    Each PlainEntry (Gateway.inferenceStats host db) := by
  have hdecimal (n : Nat) : Plain (decimal n) := plain_numeric (numeral_decimal n).numeric
  have hfirst (n ok failed : Nat) {total : ByteString} (h : Plain total) :
      Each PlainEntry (assign ∅ [("count", decimal n), ("total_ms", total),
        ("success_count", decimal ok), ("fail_count", decimal failed)]) := by
    refine each_assign (P := PlainEntry) each_empty ?_
    simp only [List.forall_mem_cons]
    exact ⟨⟨plain_lit rfl, hdecimal n⟩, ⟨plain_lit rfl, h⟩, ⟨plain_lit rfl, hdecimal ok⟩,
      ⟨plain_lit rfl, hdecimal failed⟩, by simp⟩
  have hlast {stats : Fields} (hstats : Each PlainEntry stats) {average : ByteString}
      (h : Plain average) : Each PlainEntry (assign stats [("avg_ms", average)]) := by
    refine each_assign hstats ?_
    simp only [List.forall_mem_cons]
    exact ⟨⟨plain_lit rfl, h⟩, by simp⟩
  unfold Gateway.inferenceStats
  dsimp only
  split
  · exact hfirst _ _ _ (htotal _)
  · exact hlast (hfirst _ _ _ (htotal _)) (haverage _ _)

theorem statsBody_inference_isText {host : Gateway.Host} (db : LocalMaintenanceDB)
    (configured : Bool) (htotal : ∀ times, Plain (host.totalMs times))
    (haverage : ∀ times n, Plain (host.averageMs times n)) :
    IsText (statsBody (Gateway.inferenceStats host db) configured) := by
  refine statsBody_isText configured ?_ (fun e he ↦ ?_)
  · intro hnil
    have hempty := ExtTreeMap.toList_eq_nil_iff.mp hnil
    exact ExtTreeMap.not_mem_empty (hempty ▸ count_mem host db)
  · have hfind := ExtTreeMap.mem_toList_iff_getElem?_eq_some.mp he
    exact inferenceStats_each db htotal haverage _ _ hfind

end bodies

section answers

variable {F : Type} [One F] [LT F] [DecidableLT F] {host : Host F} {s : InferenceServer}
  {m : Moment F} {req : HttpRequest} {v body data : ByteString} {answer : HttpResponse}

/-- The file names and the numbers of the statistics need no escape. -/
structure Host.WellWritten (host : Host F) : Prop where
  tempDirectory : Plain host.tempDirectory
  totalMs : ∀ times, Plain (host.totalMs times)
  averageMs : ∀ times n, Plain (host.averageMs times n)

structure Moment.Clean (m : Moment F) : Prop where
  generated : ∀ gen ms, m.generate gen = .ok ms → Foundation.Json.Clean ms
  failed : ∀ gen e, m.generate gen = .error e → Foundation.Json.Clean e

structure Moment.WellWritten (m : Moment F) : Prop extends m.Clean where
  gpuUtil : Numeral m.gpuUtil
  npuUtil : Numeral m.npuUtil

/-- The names of the models, and what is shown of the stored records, can be written. -/
structure InferenceServer.WellWritten (s : InferenceServer) (m : Moment F) : Prop where
  models : ∀ e ∈ s.models, Utf8 e.id ∧ Printable e.id
  history : ∀ w, s.lcmd = some w →
    ∀ r ∈ w.db.tables.queryInferenceRecords 0 (m.time + 86400) 100, ∀ v ∈ shown r, Plain v

def IsJson (answer : HttpResponse) : Prop := ∃ code body, answer = respond code body ∧
  code ∈ [200, 400, 403, 404, 500, 503] ∧ IsText body

theorem isJson_respond {code : UInt16} (hcode : code ∈ [200, 400, 403, 404, 500, 503])
    (h : IsText body) : IsJson (respond code body) := ⟨code, body, rfl, hcode, h⟩

theorem covers_of_clean (h : Clean v) : escaper.Covers v := by
  refine (covers_iff h.utf8).mpr (fun b hb ↦ ?_)
  rcases h.printable b hb with hlarge | hspace
  · exact .inl hlarge
  · rcases hspace with rfl | rfl | rfl | rfl
    · exact .inl (by decide)
    · exact .inr (.inr (.inr rfl))
    · exact .inr (.inl rfl)
    · exact .inr (.inr (.inl rfl))

theorem jsonGetStr_clean {key : String} (h : Clean body) : Clean (jsonGetStr body key) := by
  by_cases hnil : jsonGetStr body key = []
  · rw [hnil]
    exact clean_ascii (by simp)
  · obtain ⟨-, r, p, q, w, heq, -⟩ := (jsonGetStr_eq hnil).mp rfl
    generalize jsonGetStr body key = x at heq
    have hquotes : body = p ++ quoted 34 (lit key) ++ (q ++ 58 :: w) ++ 34 :: (x ++ 34 :: r) := by
      simp [heq]
    rw [hquotes] at h
    exact ((h.split (by decide)).2.split (by decide)).1

theorem plain_joinPath {directory name : ByteString} (h : Plain directory) (h' : Plain name) :
    Plain (Gateway.joinPath directory name) := by
  unfold Gateway.joinPath
  split
  · exact h.append h'
  · exact (h.append (plain_lit rfl)).append h'

omit [One F] [LT F] [DecidableLT F] in
theorem exportPath_plain (hhost : host.WellWritten) (m : Moment F) :
    Plain (InferenceServer.exportPath host m) := by
  have hsteady : Plain (signedDecimal m.steady) :=
    plain_numeric (numeral_signedDecimal m.steady).numeric
  exact plain_joinPath hhost.tempDirectory
    (((plain_lit rfl).append hsteady).append (plain_lit rfl))

def generation (host : Host F) (body : ByteString) : GenerationRequest F where
  prompt := []
  numSteps := min (((jsonGetInt body "max_tokens").map (·.toUInt32)).getD 2048) 128
  guidanceScale := InferenceServer.clamp
    ((jsonGetFloat host.strtof body "temperature").getD 1) host.tenth host.two

def chatAnswer (host : Host F) (s : InferenceServer) (m : Moment F) (body : ByteString) :
    OpenAIChatCompletionResponse where
  id := lit "chatcmpl-" ++ decimal (s.stats.chatCompletions + 1).toNat
  created := Int64.ofInt m.time
  model := if (jsonGetStr body "model").isEmpty then lit "cerberus-v1" else jsonGetStr body "model"
  choices := [{
    index := 0
    message := ⟨lit "assistant", InferenceServer.contentOf
      ((m.generate (generation host body)).map (fun ms ↦ lit "[Cerberus:  (" ++ ms ++ lit "ms)]"))⟩
    finishReason := lit "stop" }]
  usage := ⟨0, 64, 64⟩

theorem handleChatCompletions_eq : s.handleChatCompletions host m body =
    (s.count (fun c ↦ { c with chatCompletions := c.chatCompletions + 1 }),
      respond 200 (chatAnswer host s m body).toJson) := by
  rw [InferenceServer.handleChatCompletions, fromJson_eq]
  rfl

theorem accept_chat (hreq : InferenceServer.received data = some req)
    (hroute : route req = .chatCompletions) :
    (s.accept host m data).2 = some (respond 200 (chatAnswer host s m req.body).toJson) := by
  have hne : ¬data.isEmpty = true := by
    rw [List.isEmpty_iff]
    rintro rfl
    rw [received_nil] at hreq
    cases hreq
  rw [InferenceServer.accept, if_neg hne, hreq]
  dsimp only
  rw [InferenceServer.dispatch, hroute]
  dsimp only
  rw [handleChatCompletions_eq]
  rfl

theorem chatAnswer_covers (hm : m.Clean) (h : Clean body) :
    ∀ v ∈ (chatAnswer host s m body).texts, escaper.Covers v := by
  have hid : Clean (chatAnswer host s m body).id :=
    (plain_lit rfl).clean.append (plain_numeric (numeral_decimal _).numeric).clean
  have hmodel : Clean (chatAnswer host s m body).model := by
    unfold chatAnswer
    dsimp only
    split
    · exact (plain_lit rfl).clean
    · exact jsonGetStr_clean h
  have hcontent : Clean (InferenceServer.contentOf ((m.generate (generation host body)).map
      (fun ms ↦ lit "[Cerberus:  (" ++ ms ++ lit "ms)]"))) := by
    cases hgen : m.generate (generation host body) with
    | ok ms =>
      exact ((plain_lit rfl).clean.append (hm.generated _ _ hgen)).append (plain_lit rfl).clean
    | error e =>
      exact ((plain_lit rfl).clean.append (hm.failed _ _ hgen)).append (plain_lit rfl).clean
  have hrole : Clean (lit "assistant") := (plain_lit rfl).clean
  have hstop : Clean (lit "stop") := (plain_lit rfl).clean
  simp only [OpenAIChatCompletionResponse.texts, List.forall_mem_cons]
  refine ⟨covers_of_clean hid, covers_of_clean hmodel, ?_⟩
  simp only [chatAnswer, List.flatMap_cons, List.flatMap_nil, List.append_nil,
    List.forall_mem_cons]
  exact ⟨covers_of_clean hrole, covers_of_clean hcontent, covers_of_clean hstop, by simp⟩

theorem chatAnswer_isText (hm : m.Clean) (h : Clean body) :
    IsText (chatAnswer host s m body).toJson := by
  rw [OpenAIChatCompletionResponse.toJson_eq]
  exact ⟨_, (text_print_iff _ _).mpr ⟨rfl, (coversAll_response _).mpr (chatAnswer_covers hm h)⟩⟩

theorem chat_faithful (hm : m.Clean) (h : Clean body) :
    (chatAnswer host s m body).WrittenFaithfully :=
  (writtenFaithfully_iff_covers _).mpr ((coversAll_response _).mpr (chatAnswer_covers hm h))

omit [One F] [LT F] [DecidableLT F] in
theorem confirm_isJson {detail : ByteString} (hdetail : StringText v (Json.quoted detail))
    (h : (s.confirm host m detail body).2 = some answer) : IsJson answer := by
  unfold InferenceServer.confirm at h
  split at h
  · cases h
  · next us hus =>
    split at h
    · cases h
      exact isJson_respond (by decide) (rbpcRequired_isText hdetail)
    · dsimp only at h
      split at h
      · cases h
      · cases h
        exact isJson_respond (by decide) (rbpcFailed_isText (answer_text_plain _))

omit [One F] [LT F] [DecidableLT F] in
theorem clear_isJson : IsJson (s.handleInferenceClear host m body).2 := by
  unfold InferenceServer.handleInferenceClear
  dsimp only
  generalize s.count _ = s
  split
  · exact isJson_respond (by decide) (auditUnavailable_isText ⟨[], rfl, by simp⟩)
  · next w hw =>
    cases hgate : s.confirm host m (lit "both pin and word required for clear") body with
    | mk t gate =>
      cases gate with
      | none => exact isJson_respond (by decide) (cleared_isText _ _)
      | some answer => exact confirm_isJson (plain_lit rfl).quoted (congrArg Prod.snd hgate)

theorem exportDetail_text : StringText
    (lit "POST JSON body must contain \"pin\" and \"word\" for destructive export")
    (Json.quoted (lit ("POST JSON body must contain \\\"pin\\\" and \\\"word\\\" " ++
      "for destructive export"))) := by
  have hcovers : escaper.Covers
      (lit "POST JSON body must contain \"pin\" and \"word\" for destructive export") :=
    (covers_iff (utf8_lit _)).mpr (by decide +kernel)
  refine cast (congrArg (StringText _) ?_) (Escaper.string_enquote hcovers)
  decide +kernel

omit [One F] [LT F] [DecidableLT F] in
theorem export_isJson (hhost : host.WellWritten) :
    IsJson (s.handleInferenceExport host m body).2 := by
  unfold InferenceServer.handleInferenceExport
  dsimp only
  generalize s.count _ = s
  split
  · exact isJson_respond (by decide) (auditUnavailable_isText (plain_lit rfl))
  · next w hw =>
    split
    · next answer hgate => exact confirm_isJson exportDetail_text (congrArg Prod.snd hgate)
    · split
      · refine isJson_respond (by decide) (isText_of_value (valueText_written [
          fixed "error" "export_failed" (plain_lit rfl) (plain_lit rfl),
          fixed "reason" "filesystem write error" (plain_lit rfl) (plain_lit rfl)]))
      · exact isJson_respond (by decide) (exported_isText _ (exportPath_plain hhost m))

theorem dispatch_isJson (hhost : host.WellWritten) (hm : m.WellWritten) (hs : s.WellWritten m)
    (hbody : route req = .chatCompletions → Clean req.body) : IsJson (s.dispatch host m req).2 := by
  unfold InferenceServer.dispatch
  cases hroute : route req with
  | health => exact isJson_respond (by decide) (health_isText hm.gpuUtil hm.npuUtil)
  | listModels => exact isJson_respond (by decide) (listModelsJson_isText hs.models)
  | chatCompletions =>
    dsimp only
    rw [handleChatCompletions_eq]
    exact isJson_respond (by decide) (chatAnswer_isText hm.toClean (hbody hroute))
  | inferenceHistory =>
    dsimp only
    unfold InferenceServer.handleInferenceHistory
    dsimp only
    have hlcmd (f : ServerStats → ServerStats) : (s.count f).lcmd = s.lcmd := rfl
    rw [hlcmd]
    cases hw : s.lcmd with
    | none => exact isJson_respond (by decide) (auditUnavailable_isText (plain_lit rfl))
    | some w => exact isJson_respond (by decide) (historyJson_isText (hs.history w hw))
  | inferenceExport => exact export_isJson hhost
  | inferenceClear => exact clear_isJson
  | inferenceStats =>
    dsimp only
    unfold InferenceServer.handleInferenceStats
    dsimp only
    split
    · exact isJson_respond (by decide) (auditUnavailable_isText ⟨[], rfl, by simp⟩)
    · exact isJson_respond (by decide)
        (statsBody_inference_isText _ _ hhost.totalMs hhost.averageMs)
  | options => exact isJson_respond (by decide) (isText_of_value (valueText_written []))
  | notFound =>
    exact isJson_respond (by decide) (isText_of_value (valueText_written [
      fixed "error" "not_found" (plain_lit rfl) (plain_lit rfl)]))

/-- Whatever a client sends, what it gets is read as one answer of type JSON, and that is one. -/
theorem answers_are_json (hhost : host.WellWritten) (hm : m.WellWritten) (hs : s.WellWritten m)
    (hdata : ∀ req, InferenceServer.received data = some req → route req = .chatCompletions →
      Clean req.body) (h : (s.accept host m data).2 = some answer) :
    ∃ code body, readReply answer.render = some (⟨code, lit "application/json", true, body⟩, []) ∧
      code ∈ [200, 400, 403, 404, 500, 503] ∧ IsText body := by
  have hjson : IsJson answer := by
    unfold InferenceServer.accept at h
    dsimp only at h
    split at h
    · cases h
    · split at h
      · next req hreq =>
        cases h
        exact dispatch_isJson hhost hm ⟨hs.models, hs.history⟩ (hdata req hreq)
      · cases h
        exact isJson_respond (by decide) (isText_of_value (valueText_written [
          fixed "error" "bad_request" (plain_lit rfl) (plain_lit rfl)]))
  obtain ⟨code, body, rfl, hcode, hbody⟩ := hjson
  have hsendable : (respond code body).Sendable := ⟨(by decide : 10 ∉ lit "application/json"), rfl⟩
  have hread := readReply_render hsendable []
  rw [List.append_nil] at hread
  exact ⟨code.toNat, body, hread, List.mem_map_of_mem (f := UInt16.toNat) hcode, hbody⟩

end answers

theorem sampleHost_wellWritten : sampleHost.WellWritten :=
  ⟨plain_lit rfl, fun _ ↦ plain_lit rfl, fun _ _ ↦ plain_lit rfl⟩

theorem sampleMoment_wellWritten : sampleMoment.WellWritten := by
  have hone : Digits [49] := ⟨by simp, by simp; decide⟩
  have hzero : Digits [48] := ⟨by simp, by simp; decide⟩
  have hminus : Numeral (lit "-1.0") := by
    exact ⟨[45], [49], [46, 48], [], by decide, .inr rfl, hone, by simp,
      .inr ⟨[48], hzero, rfl⟩, .inl rfl⟩
  refine ⟨⟨fun gen ms h ↦ ?_, fun gen e h ↦ ?_⟩, hminus, hminus⟩
  · obtain rfl := Except.ok.inj h
    exact (plain_lit rfl).clean
  · cases h

def chatting : RequestText where
  method := lit "POST"
  path := lit "/v1/chat/completions"
  version := lit "HTTP/1.1"
  lines := [lit "Content-Length: 19"]
  body := lit "\x7b\"model\":\"mistral\"\x7d"

theorem chatting_wellFormed : chatting.WellFormed where
  method := by decide
  path := by decide
  requestLine := by decide
  lines := by decide
  plain := by
    rw [RequestText.headers, addHeaders_get]
    decide
  length := by
    rw [RequestText.headers, addHeaders_get]
    decide
  no_length := by
    rw [RequestText.headers, addHeaders_get]
    decide
  short := by decide

theorem received_chatting : InferenceServer.received chatting.render = some chatting.request :=
  (SimpleHttpParser.feed_render chatting_wellFormed).answer

theorem chatting_clean : Clean chatting.body := by
  obtain ⟨_, htext⟩ := isText_of_value (valueText_written [
    fixed "model" "mistral" (plain_lit rfl) (plain_lit rfl)])
  exact text_clean htext

theorem answers_are_json_chat : ∃ answer, (sampleServer.accept sampleHost sampleMoment
      chatting.render).2 = some answer ∧
    ∃ code body, readReply answer.render =
      some (⟨code, lit "application/json", true, body⟩, []) ∧ IsText body := by
  have hsome : (sampleServer.accept sampleHost sampleMoment chatting.render).2 = _ :=
    accept_chat received_chatting rfl
  have hserver : sampleServer.WellWritten sampleMoment := by
    refine ⟨by simp [sampleServer], ?_⟩
    intro w hw
    obtain rfl := Option.some.inj hw
    have hnil : ∀ r ∈ Tables.queryInferenceRecords
        { inferenceRecords := (∅ : Table).insert (lit "1") ∅ } 0 86400 100,
        ∀ v ∈ shown r, v = [] := by
      decide +kernel
    intro r hr v hv
    rw [hnil r hr v hv]
    exact ⟨[], rfl, by simp⟩
  refine ⟨_, hsome, ?_⟩
  have hclean (req : HttpRequest) (hreq : InferenceServer.received chatting.render = some req)
      (_ : route req = .chatCompletions) : Clean req.body := by
    obtain rfl := Option.some.inj (received_chatting.symm.trans hreq)
    exact chatting_clean
  obtain ⟨code, body, hread, -, htext⟩ := answers_are_json sampleHost_wellWritten
    sampleMoment_wellWritten hserver hclean hsome
  exact ⟨code, body, hread, htext⟩

section counters

variable {F : Type} [One F] [LT F] [DecidableLT F] {host : Host F} {s u : InferenceServer}
  {tr : List (InferenceServer × Event F)} {m : Moment F} {body : ByteString}

def Event.data : Event F → Option ByteString
  | .connection _ data => some data
  | _ => none

def Event.request (e : Event F) : Option HttpRequest := e.data.bind InferenceServer.received

def Event.unread (e : Event F) : Bool := e.data.any (fun data ↦ data ≠ []) && e.request.isNone

def Event.asks (r : Route) (e : Event F) : Bool := e.request.any (fun req ↦ route req = r)

def counters : List (Route × (ServerStats → UInt64)) := [
  (.health, (·.healthChecks)),
  (.listModels, (·.modelLists)),
  (.chatCompletions, (·.chatCompletions)),
  (.inferenceHistory, (·.inferenceHistoryRequests)),
  (.inferenceExport, (·.inferenceExportRequests)),
  (.inferenceClear, (·.inferenceClearRequests)),
  (.inferenceStats, (·.inferenceStatsRequests))]

def ServerStats.ask (c : ServerStats) : Route → ServerStats
  | .health => { c with healthChecks := c.healthChecks + 1 }
  | .listModels => { c with modelLists := c.modelLists + 1 }
  | .chatCompletions => { c with chatCompletions := c.chatCompletions + 1 }
  | .inferenceHistory => { c with inferenceHistoryRequests := c.inferenceHistoryRequests + 1 }
  | .inferenceExport => { c with inferenceExportRequests := c.inferenceExportRequests + 1 }
  | .inferenceClear => { c with inferenceClearRequests := c.inferenceClearRequests + 1 }
  | .inferenceStats => { c with inferenceStatsRequests := c.inferenceStatsRequests + 1 }
  | .options => c
  | .notFound => c

omit [One F] [LT F] [DecidableLT F] in
theorem confirm_stats (host : Host F) (s : InferenceServer) (m : Moment F)
    (detail body : ByteString) :
    (s.confirm host m detail body).1.stats = s.stats := by
  have hend := confirm_end host s m detail body
  generalize s.confirm host m detail body = p at hend ⊢
  cases hend <;> rfl

theorem dispatch_stats (s : InferenceServer) (m : Moment F) (req : HttpRequest) :
    (s.dispatch host m req).1.stats = s.stats.ask (route req) := by
  unfold InferenceServer.dispatch
  cases hroute : route req with
  | chatCompletions =>
    dsimp only
    rw [handleChatCompletions_eq]
    rfl
  | inferenceHistory =>
    dsimp only
    unfold InferenceServer.handleInferenceHistory
    dsimp only
    split <;> rfl
  | inferenceStats =>
    dsimp only
    unfold InferenceServer.handleInferenceStats
    dsimp only
    split <;> rfl
  | inferenceClear =>
    have hask (f : ServerStats → ServerStats) : f s.stats = (s.count f).stats := rfl
    rw [ServerStats.ask, hask (fun c ↦ { c with
      inferenceClearRequests := c.inferenceClearRequests + 1 })]
    dsimp only
    unfold InferenceServer.handleInferenceClear
    dsimp only
    generalize s.count _ = t
    cases t.lcmd with
    | none => rfl
    | some w =>
      dsimp only
      generalize hgate : t.confirm host m _ req.body = p
      have hstats : p.1.stats = t.stats := hgate ▸ confirm_stats host t m _ req.body
      obtain ⟨t', gate⟩ := p
      cases gate <;> exact hstats
  | inferenceExport =>
    have hask (f : ServerStats → ServerStats) : f s.stats = (s.count f).stats := rfl
    rw [ServerStats.ask, hask (fun c ↦ { c with
      inferenceExportRequests := c.inferenceExportRequests + 1 })]
    dsimp only
    unfold InferenceServer.handleInferenceExport
    dsimp only
    generalize s.count _ = t
    cases t.lcmd with
    | none => rfl
    | some w =>
      dsimp only
      generalize hgate : t.confirm host m _ req.body = p
      have hstats : p.1.stats = t.stats := hgate ▸ confirm_stats host t m _ req.body
      obtain ⟨t', gate⟩ := p
      cases gate with
      | some answer => exact hstats
      | none =>
        dsimp only
        unfold InferenceServer.exportInferenceJson
        cases m.opens with
        | false => exact hstats
        | true => cases m.cutAt <;> exact hstats
  | _ => rfl

def ServerStats.add (c : ServerStats) (e : Event F) : ServerStats :=
  let c := { c with
    requestsServed := c.requestsServed + if e.data.isSome then 1 else 0
    errors := c.errors + if e.unread then 1 else 0 }
  e.request.elim c (fun req ↦ c.ask (route req))

theorem serve_stats (s : InferenceServer) (e : Event F) :
    (s.serve host e).stats = s.stats.add e := by
  cases e with
  | connection m data =>
    rw [InferenceServer.serve, InferenceServer.accept]
    by_cases hnil : data = []
    · subst hnil
      simp [ServerStats.add, Event.data, Event.request, Event.unread, received_nil,
        InferenceServer.count]
    · rw [if_neg (by rwa [List.isEmpty_iff])]
      cases hreq : InferenceServer.received data with
      | none =>
        simp [ServerStats.add, Event.data, Event.request, Event.unread, hreq, hnil,
          InferenceServer.count]
      | some req =>
        dsimp only
        rw [dispatch_stats]
        simp [ServerStats.add, Event.data, Event.request, Event.unread, hreq, hnil,
          InferenceServer.count]
  | _ => simp [ServerStats.add, InferenceServer.serve, Event.data, Event.request, Event.unread,
    InferenceServer.setModelDir]

/-- A counter that every event of some kind moves, and no other, counts these events. -/
theorem counted {f : ServerStats → UInt64} {p : Event F → Bool}
    (hf : ∀ c e, f (c.add e) = f c + if p e then 1 else 0) (h : Run (Serves host) s tr u) :
    f u.stats = f s.stats + .ofNat (tr.countP (fun e ↦ p e.2)) := by
  induction h with
  | nil s => simp
  | @cons s t u e tr hs _ ih =>
    obtain rfl := hs
    rw [ih, serve_stats, hf, List.countP_cons]
    cases p e with
    | false => simp
    | true => simp [UInt64.ofNat_add, add_comm, add_assoc]

theorem ask_served (c : ServerStats) (r : Route) :
    (c.ask r).requestsServed = c.requestsServed ∧ (c.ask r).errors = c.errors := by
  cases r <;> exact ⟨rfl, rfl⟩

theorem counter_ask {c : Route × (ServerStats → UInt64)} (hc : c ∈ counters) (st : ServerStats)
    (r : Route) : c.2 (st.ask r) = c.2 st + if r = c.1 then 1 else 0 := by
  simp only [counters, List.mem_cons, List.not_mem_nil, or_false] at hc
  rcases hc with rfl | rfl | rfl | rfl | rfl | rfl | rfl <;>
    cases r <;> simp [ServerStats.ask]

theorem counter_same {c : Route × (ServerStats → UInt64)} (hc : c ∈ counters) (st : ServerStats)
    {served errors : UInt64} :
    c.2 { st with requestsServed := served, errors := errors } = c.2 st := by
  simp only [counters, List.mem_cons, List.not_mem_nil, or_false] at hc
  rcases hc with rfl | rfl | rfl | rfl | rfl | rfl | rfl <;> rfl

omit [One F] [LT F] [DecidableLT F] in
theorem add_counter {c : Route × (ServerStats → UInt64)} (hc : c ∈ counters) (st : ServerStats)
    (e : Event F) : c.2 (st.add e) = c.2 st + if e.asks c.1 then 1 else 0 := by
  unfold ServerStats.add Event.asks
  cases e.request with
  | none => simpa using counter_same hc st
  | some req =>
    simp only [Option.elim_some, Option.any_some, decide_eq_true_eq, counter_ask hc,
      counter_same hc]

/-- Whatever happens, the counters tell how many connections there were, how many brought what is
no request, and how many requests there were of each kind, modulo `2 ^ 64`. -/
theorem counters_tell (h : Run (Serves host) s tr u) :
    u.stats.requestsServed =
      s.stats.requestsServed + .ofNat (tr.countP (fun e ↦ e.2.data.isSome)) ∧
    u.stats.errors = s.stats.errors + .ofNat (tr.countP (fun e ↦ e.2.unread)) ∧
    ∀ c ∈ counters, c.2 u.stats = c.2 s.stats + .ofNat (tr.countP (fun e ↦ e.2.asks c.1)) := by
  refine ⟨counted (f := (·.requestsServed)) (p := (·.data.isSome)) (fun c e ↦ ?_) h,
    counted (f := (·.errors)) (p := (·.unread)) (fun c e ↦ ?_) h,
    fun c hc ↦ counted (add_counter hc) h⟩
  · unfold ServerStats.add
    cases e.request with
    | none => rfl
    | some req => exact (ask_served _ _).1
  · unfold ServerStats.add
    cases e.request with
    | none => rfl
    | some req => exact (ask_served _ _).2

theorem chatting_run : Run (Serves sampleHost) sampleServer
    [(sampleServer, .connection sampleMoment chatting.render),
      (sampleServer.serve sampleHost (.connection sampleMoment chatting.render),
        .connection sampleMoment chatting.render)]
    ((sampleServer.serve sampleHost (.connection sampleMoment chatting.render)).serve sampleHost
      (.connection sampleMoment chatting.render)) :=
  .cons rfl (.cons rfl (.nil _))

/-- Two chats. -/
theorem counters_tell_chats : ∃ tr u, Run (Serves sampleHost) sampleServer tr u ∧
    u.stats.chatCompletions = 2 := by
  have htell := (counters_tell chatting_run).2.2 (.chatCompletions, (·.chatCompletions))
    (by simp [counters])
  refine ⟨_, _, chatting_run, htell.trans ?_⟩
  have hasks : (Event.connection sampleMoment chatting.render).asks .chatCompletions = true := by
    rw [Event.asks, Event.request, Event.data, Option.bind_some, received_chatting]
    rfl
  simp only [List.countP_cons, List.countP_nil, hasks]
  rfl

structure Chatted (F : Type) where
  moment : Moment F
  body : ByteString
  answer : HttpResponse

def chatted (host : Host F) (s : InferenceServer) : Event F → Option (Chatted F)
  | .connection m data =>
    (InferenceServer.received data).bind (fun req ↦
      if route req = .chatCompletions then (s.accept host m data).2.map (⟨m, req.body, ·⟩)
      else none)
  | _ => none

def chats (host : Host F) (tr : List (InferenceServer × Event F)) : List (Chatted F) :=
  tr.filterMap (fun e ↦ chatted host e.1 e.2)

/-- The answer is a response from the model that the body names, to an empty prompt. A client can read
it if what the pipeline answers and the body are clean. -/
structure Chatted.Told (host : Host F) (c : Chatted F) (r : OpenAIChatCompletionResponse) :
    Prop where
  answer : c.answer = respond 200 r.toJson
  faithful : c.moment.Clean → Clean c.body → r.WrittenFaithfully
  model : r.model = if (jsonGetStr c.body "model").isEmpty then lit "cerberus-v1"
    else jsonGetStr c.body "model"
  content : ∃ gen : GenerationRequest F, gen.prompt = [] ∧ gen.numSteps ≤ 128 ∧
    r.choices.map (·.message.content) = [InferenceServer.contentOf
      ((c.moment.generate gen).map (fun ms ↦ lit "[Cerberus:  (" ++ ms ++ lit "ms)]"))]
  usage : r.usage = ⟨0, 64, 64⟩

theorem steps_le (host : Host F) (body : ByteString) : (generation host body).numSteps ≤ 128 := by
  have hmin (n : UInt32) : min n 128 = if n ≤ 128 then n else 128 := rfl
  rw [generation, hmin]
  split
  · assumption
  · exact UInt32.le_refl 128

theorem chatAnswer_told (host : Host F) (s : InferenceServer) (m : Moment F) (body : ByteString) :
    Chatted.Told host ⟨m, body, respond 200 (chatAnswer host s m body).toJson⟩
      (chatAnswer host s m body) where
  answer := rfl
  faithful := chat_faithful
  model := rfl
  content := ⟨generation host body, rfl, steps_le host body, rfl⟩
  usage := rfl

theorem chatted_cases (host : Host F) (s : InferenceServer) (e : Event F) :
    (chatted host s e = none ∧ e.asks .chatCompletions = false) ∨
    ∃ m body, chatted host s e = some ⟨m, body, respond 200 (chatAnswer host s m body).toJson⟩ ∧
      e.asks .chatCompletions = true := by
  cases e with
  | connection m data =>
    cases hreq : InferenceServer.received data with
    | none =>
      exact .inl ⟨by simp [chatted, hreq], by simp [Event.asks, Event.request, Event.data, hreq]⟩
    | some req =>
      have hasks : (Event.connection m data).asks .chatCompletions =
          decide (route req = .chatCompletions) := by
        simp [Event.asks, Event.request, Event.data, hreq]
      by_cases hroute : route req = .chatCompletions
      · refine .inr ⟨m, req.body, ?_, hasks.trans (decide_eq_true hroute)⟩
        simp [chatted, hreq, hroute, accept_chat hreq hroute]
      · exact .inl ⟨by simp [chatted, hreq, hroute], hasks.trans (decide_eq_false hroute)⟩
  | _ => exact .inl ⟨rfl, rfl⟩

/-- The identifiers of the answers are numbered through. -/
theorem chats_run (h : Run (Serves host) s tr u) :
    ∃ rs, List.Forall₂ (Chatted.Told host) (chats host tr) rs ∧
      rs.map (·.id) = (List.range rs.length).map (fun i ↦ lit "chatcmpl-" ++
        decimal (s.stats.chatCompletions + 1 + .ofNat i).toNat) := by
  induction h with
  | nil s => exact ⟨[], .nil, rfl⟩
  | @cons s t u e tr hs hr ih =>
    obtain rfl := hs
    have hcount : (s.serve host e).stats.chatCompletions = s.stats.chatCompletions +
        if e.asks .chatCompletions then 1 else 0 := by
      rw [serve_stats]
      exact add_counter (c := (.chatCompletions, (·.chatCompletions))) (by simp [counters]) _ e
    rcases chatted_cases host s e with ⟨hnone, hasks⟩ | ⟨m, body, hsome, hasks⟩
    · have hrest : chats host ((s, e) :: tr) = chats host tr := by
        rw [chats, List.filterMap_cons, hnone]
        rfl
      rw [hrest]
      obtain ⟨rs, htold, hids⟩ := ih
      refine ⟨rs, htold, ?_⟩
      rw [hids, hcount, hasks]
      simp
    · have hrest : chats host ((s, e) :: tr) = 
          ⟨m, body, respond 200 (chatAnswer host s m body).toJson⟩ :: chats host tr := by
        rw [chats, List.filterMap_cons, hsome]
        rfl
      rw [hrest]
      obtain ⟨rs, htold, hids⟩ := ih
      refine ⟨_ :: rs, .cons (chatAnswer_told host s m body) htold, ?_⟩
      have hnext (n : UInt64) (i : Nat) : n + 1 + 1 + .ofNat i = n + 1 + .ofNat (i + 1) := by
        rw [UInt64.ofNat_add, add_assoc _ 1, add_comm 1]
        rfl
      rw [List.map_cons, hids, hcount, hasks, List.length_cons, List.range_succ_eq_map, if_pos rfl,
        List.map_cons, List.map_map]
      simp only [hnext]
      simp [chatAnswer, Function.comp_def]

/-- In every run the answers to chat requests are responses, and up to `2 ^ 64` of them have different
identifiers. -/
theorem chats_answered (h : Run (Serves host) s tr u)
    (hshort : (chats host tr).length ≤ 2 ^ 64) :
    ∃ rs, List.Forall₂ (Chatted.Told host) (chats host tr) rs ∧ (rs.map (·.id)).Nodup := by
  obtain ⟨rs, htold, hids⟩ := chats_run h
  refine ⟨rs, htold, ?_⟩
  rw [hids]
  refine List.Nodup.map_on ?_ List.nodup_range
  intro i hi j hj heq
  rw [List.mem_range, ← htold.length_eq] at hi hj
  have hsum := UInt64.toNat_inj.mp (decimal_injective (List.append_cancel_left heq))
  have hone := congrArg UInt64.toNat (add_left_cancel hsum)
  rw [UInt64.toNat_ofNat', UInt64.toNat_ofNat'] at hone
  omega

theorem chats_answered_two : ∃ tr u rs, Run (Serves sampleHost) sampleServer tr u ∧
    (chats sampleHost tr).length = 2 ∧
    List.Forall₂ (fun c r ↦ Chatted.Told sampleHost c r ∧ r.WrittenFaithfully)
      (chats sampleHost tr) rs ∧ (rs.map (·.id)).Nodup := by
  have hchat (s : InferenceServer) :
      chatted sampleHost s (.connection sampleMoment chatting.render) = some
        ⟨sampleMoment, chatting.body,
          respond 200 (chatAnswer sampleHost s sampleMoment chatting.body).toJson⟩ := by
    have hroute : route chatting.request = .chatCompletions := rfl
    simp [chatted, received_chatting, hroute, accept_chat received_chatting hroute]
    exact ⟨rfl, rfl⟩
  have hlength : (chats sampleHost [(sampleServer, .connection sampleMoment chatting.render),
      (sampleServer.serve sampleHost (.connection sampleMoment chatting.render),
        .connection sampleMoment chatting.render)]).length = 2 := by
    simp [chats, hchat]
  have hclean : ∀ c ∈ chats sampleHost [(sampleServer, .connection sampleMoment chatting.render),
      (sampleServer.serve sampleHost (.connection sampleMoment chatting.render),
        .connection sampleMoment chatting.render)], c.moment.Clean ∧ Clean c.body := by
    simp only [chats, List.filterMap_cons, hchat, List.filterMap_nil, List.forall_mem_cons]
    exact ⟨⟨sampleMoment_wellWritten.toClean, chatting_clean⟩,
      ⟨sampleMoment_wellWritten.toClean, chatting_clean⟩, by simp⟩
  obtain ⟨rs, htold, hids⟩ := chats_answered chatting_run (by rw [hlength]; decide)
  refine ⟨_, _, rs, chatting_run, hlength, ?_, hids⟩
  exact ((List.forall₂_and_left _ _).mpr ⟨hclean, htold⟩).imp
    (fun _ _ h ↦ ⟨h.2, h.2.faithful h.1.1 h.1.2⟩)

end counters

end Cerberus.Inference
