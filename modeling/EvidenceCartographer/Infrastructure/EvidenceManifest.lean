import EvidenceCartographer.Infrastructure.StoredBundle
import EvidenceCartographer.Python.JsonLoads

/-! Reading back the evidence manifest.

    The manifest is one canonical JSON text and a newline for each item. No text has a newline in it,
    so the newlines are the ends of the lines and of nothing else, and each line decodes to the tree of
    its item. -/

namespace EvidenceCartographer.Infrastructure

open Python Domain Application Concurrency

/-! ### The trees of the items -/

theorem uniqueKeys_dumpText (text : Option String) : (dumpText text).UniqueKeys := by
  cases text <;> trivial

theorem uniqueKeys_message (m : ValidationMessage) : m.modelDump.UniqueKeys := by
  simp [ValidationMessage.modelDump, Json.uniqueKeys_obj, Json.UniqueKeys, uniqueKeys_dumpText]

theorem uniqueKeys_result (r : ContractResult) : r.modelDump.UniqueKeys := by
  have hmessages : ∀ value ∈ r.messages.map (·.modelDump), value.UniqueKeys := by
    intro value hvalue
    obtain ⟨m, -, rfl⟩ := List.mem_map.mp hvalue
    exact uniqueKeys_message m
  have hmessages := (Json.uniqueKeys_arr _).mpr hmessages
  simp [ContractResult.modelDump, Json.uniqueKeys_obj, hmessages]
  trivial

theorem uniqueKeys_provenance (r : SourceRecord) : r.modelDump.UniqueKeys := by
  simp [SourceRecord.modelDump, Json.uniqueKeys_obj, Json.UniqueKeys, uniqueKeys_dumpText,
    UUID.dump, AwareDatetime.dump]

/-- Every item is a tree with unique keys. -/
theorem uniqueKeys_item (item : BronzeRecordEvidence) : item.modelDump.UniqueKeys := by
  simp [BronzeRecordEvidence.modelDump, Json.uniqueKeys_obj, uniqueKeys_provenance,
    uniqueKeys_result]

/-! ### Canonical texts -/

theorem loadsBytes_canonicalJson {value : Json} (hunique : value.UniqueKeys) :
    Json.loadsBytes (canonicalJson value) = some value.canonical := by
  rw [Json.loadsBytes, canonicalJson, Json.decodeUtf8_encodeUtf8]
  exact Json.loads_dumps hunique

theorem canonicalJson_ne_nil {value : Json} (hunique : value.UniqueKeys) :
    canonicalJson value ≠ [] := by
  intro hempty
  have hload := loadsBytes_canonicalJson hunique
  rw [hempty] at hload
  cases hload

/-! ### Lines -/

/-- Lines without the separator, each of them ended by one, are what splitting at it gives. -/
theorem splitOn_terminated {α : Type} [BEq α] [LawfulBEq α] (sep : α) (lines : List (List α))
    (h : ∀ line ∈ lines, sep ∉ line) :
    (lines.flatMap (· ++ [sep])).splitOn sep = lines ++ [[]] := by
  induction lines with
  | nil => rfl
  | cons line lines ih =>
    obtain ⟨hline, hlines⟩ := List.forall_mem_cons.mp h
    rw [List.flatMap_cons, List.append_assoc, List.singleton_append, List.splitOn_append_cons_self,
      List.splitOn_eq_singleton hline, ih hlines, List.singleton_append, List.cons_append]

/-- The bytes are one line for each tree: not empty, ended by a newline, and decoding to that tree. -/
def LinesOf (trees : List Json) (data : Bytes) : Prop :=
  ∃ lines, data.splitOn 0x0a = lines ++ [[]] ∧
    List.Forall₂ (fun line tree => line ≠ [] ∧
      ∃ decoded, Json.loadsBytes line = some decoded ∧ Json.SameTree decoded tree) lines trees

theorem evidenceLines_split (items : List BronzeRecordEvidence) :
    (items.flatMap evidenceLine).splitOn 0x0a =
      items.map (fun item => canonicalJson item.modelDump) ++ [[]] := by
  have hlines : items.flatMap evidenceLine =
      (items.map fun item => canonicalJson item.modelDump).flatMap (· ++ [0x0a]) := by
    rw [List.flatMap_map]
    rfl
  rw [hlines, splitOn_terminated]
  intro line hline
  obtain ⟨item, -, rfl⟩ := List.mem_map.mp hline
  exact newline_not_mem_canonicalJson _

theorem linesOf_evidence (items : List BronzeRecordEvidence) :
    LinesOf (items.map (·.modelDump)) (evidenceBytes items) := by
  refine ⟨_, evidenceLines_split items, ?_⟩
  rw [List.forall₂_map_left_iff, List.forall₂_map_right_iff, List.forall₂_same]
  intro item _
  have hunique := uniqueKeys_item item
  exact ⟨canonicalJson_ne_nil hunique, _, loadsBytes_canonicalJson hunique,
    (Json.sameTree_canonical _).symm⟩

/-- Whatever bytes decode to, line by line, is one list of trees. -/
theorem LinesOf.unique {trees trees' : List Json} {data : Bytes} (h : LinesOf trees data)
    (h' : LinesOf trees' data) : List.Forall₂ Json.SameTree trees trees' := by
  obtain ⟨lines, hsplit, hlines⟩ := h
  obtain ⟨lines', hsplit', hlines'⟩ := h'
  rw [hsplit, List.append_cancel_right_eq] at hsplit'
  subst hsplit'
  clear hsplit
  induction hlines generalizing trees' with
  | nil => cases hlines'; exact .nil
  | cons hline _ ih =>
    cases hlines' with
    | cons hline' hlines' =>
      obtain ⟨-, decoded, hload, hsame⟩ := hline
      obtain ⟨-, decoded', hload', hsame'⟩ := hline'
      rw [hload] at hload'
      cases hload'
      exact .cons (hsame.symm.trans hsame') (ih hlines')

/-! ### The stored manifest -/

/-- What a call stores under the key of its evidence manifest are the lines of its items. -/
theorem stored_evidence {ι : Type} [DecidableEq ι] {srv : Server} {call : ι → BundleCall}
    {objects : ObjectKey → Option (Bytes × List (String × String))}
    {c : Config ι httpSignature (World ι) Exc BronzeBundleReceipt}
    (hr : (storeSystem srv).Reachable ⟨World.initial objects, fun i => (call i).run⟩ c)
    {i : ι} {n : Nat} {keys : BronzeObjectKeys} {o : ObjectRecord ι}
    (hkeys : (call i).keys = .ok keys)
    (hobj : c.shared.objects ((call i).objectKey keys.evidenceManifest) = some o)
    (hcreator : o.creator = some (i, n)) : o.data = evidenceBytes (call i).evidence.items := by
  obtain ⟨p, hp, hl, hkey⟩ := c.shared.created _ o i n hobj hcreator
  obtain ⟨plan, hreq⟩ := ((orderly_of_reachable hr i n p hp).of_key hkeys).2 hkey
  obtain ⟨-, hstored⟩ := c.shared.stored i n p hp hl
  rw [hkey, hobj, hreq] at hstored
  rw [Option.some.inj hstored, plan.evidenceCreate_honest.record_data]
  exact plan.written_of.content

/-- Evidence manifests round trip: each decodes line by line to the trees of its items, whatever the
    order of their keys was, and to no others. What a call stores is the manifest of its items. -/
theorem evidenceManifest_roundTrip :
    (∀ items, LinesOf (items.map (·.modelDump)) (evidenceBytes items)) ∧
    (∀ tree tree' : Json, tree.UniqueKeys → Json.SameTree tree tree' →
      canonicalJson tree = canonicalJson tree') ∧
    (∀ items items', evidenceBytes items = evidenceBytes items' →
      List.Forall₂ Json.SameTree (items.map (·.modelDump)) (items'.map (·.modelDump))) ∧
    (∀ (ι : Type) [DecidableEq ι] (srv : Server) (call : ι → BundleCall)
      (objects : ObjectKey → Option (Bytes × List (String × String)))
      (c : Config ι httpSignature (World ι) Exc BronzeBundleReceipt) (i : ι) (n : Nat)
      (keys : BronzeObjectKeys) (o : ObjectRecord ι),
      (storeSystem srv).Reachable ⟨World.initial objects, fun i => (call i).run⟩ c →
      (call i).keys = .ok keys →
      c.shared.objects ((call i).objectKey keys.evidenceManifest) = some o →
      o.creator = some (i, n) → o.data = evidenceBytes (call i).evidence.items) := by
  refine ⟨linesOf_evidence, ?_, ?_, ?_⟩
  · intro tree tree' hunique hsame
    rw [canonicalJson, canonicalJson, hsame.dumps_eq hunique]
  · intro items items' heq
    have hlines := linesOf_evidence items
    rw [heq] at hlines
    exact hlines.unique (linesOf_evidence items')
  · intro ι _ srv call objects c i n keys o hr hkeys hobj hcreator
    exact stored_evidence hr hkeys hobj hcreator

/-- The sample call has stored four lines, each with a newline, a quotation mark and U+2028 in one of its
    texts; and two fields in either order have one text. -/
theorem evidenceManifest_roundTrip_sample :
    (∃ (c : Config Unit httpSignature (World Unit) Exc BronzeBundleReceipt) (o : ObjectRecord Unit),
      (storeSystem Server.strict).Reachable ⟨World.initial fun _ => none,
        fun _ => (sampleBundle csv none).run⟩ c ∧
      c.shared.objects ("lake", (sampleKeys csv).evidenceManifest) = some o ∧
      (∀ item ∈ sampleEvidence sampleId, item.provenance.attributionText = some "\"a\nb\u2028") ∧
      (sampleEvidence sampleId).length = 4 ∧
      LinesOf ((sampleEvidence sampleId).map (·.modelDump)) o.data) ∧
    canonicalJson (.obj [("uri", .str "\n"), ("id", .null)]) =
      canonicalJson (.obj [("id", .null), ("uri", .str "\n")]) := by
  obtain ⟨hlines, horder, -, hstored⟩ := evidenceManifest_roundTrip
  refine ⟨?_, horder _ _ ?_ (.reorder (.swap ..))⟩
  · obtain ⟨w', hrun, hl⟩ := runs_storeBundle_committed (i := ())
      (w := World.initial fun _ => none) Server.strict_grants csv_ready fun _ _ => rfl
    let procs : Unit → Program httpSignature Exc BronzeBundleReceipt := fun _ =>
      (sampleBundle csv none).run
    have hr := hrun.reachable (rfl : procs () = _) .refl
    have hdata := hstored Unit Server.strict _ _ _ () 1 _ _ hr (sample_keys csv none) hl.evidence rfl
    refine ⟨_, _, hr, hl.evidence, ?_, rfl, ?_⟩
    · intro item hitem
      obtain ⟨outcome, -, rfl⟩ := List.mem_map.mp hitem
      rfl
    · rw [hdata]
      exact hlines _
  · simp [Json.UniqueKeys]

end EvidenceCartographer.Infrastructure
