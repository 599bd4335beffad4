import EvidenceCartographer.Domain.Rendering
import EvidenceCartographer.Sources.Met.Rows

/-! The identities of evidence records.

    A row whose Object ID parses is known by the number, however it was written; any other row by its
    run and its place. The two kinds never meet, and a rejected row shares its identity with the row
    that claimed it first. -/

namespace EvidenceCartographer.Sources.Met

open Python Domain Application Infrastructure

theorem parsePositiveObjectId_pos {value : Option String} {n : Int}
    (h : parsePositiveObjectId value = some n) : 0 < n := by
  unfold parsePositiveObjectId at h
  split at h
  · cases h
  split at h
  · cases h
  split at h
  · cases h; assumption
  · cases h

/-- A positive integer in decimal. -/
theorem toString_pos {n : Int} (h : 0 < n) : toString n = toString n.toNat := by
  obtain ⟨k, rfl⟩ := Int.eq_ofNat_of_zero_le (Int.le_of_lt h)
  rfl

theorem colon_not_mem_toString (n : Nat) : ':' ∉ (toString n).toList := by
  rw [Nat.toString_eq_ofList_toDigits, String.toList_ofList]
  intro hmem
  exact absurd (Nat.isDigit_of_mem_toDigits (by decide) (by decide) hmem) (by decide)

/-- The identity of a row by its place is none by a number. -/
theorem fallback_ne_objectId (context context' : MetEvidenceContext) (n n' : Nat) {m : Int}
    (h : 0 < m) : sourceRecordId context none n ≠ sourceRecordId context' (some m) n' := by
  intro heq
  have hcolon : ':' ∈ (sourceRecordId context none n).toList := by
    simp [sourceRecordId, String.toList_append]
  rw [heq, sourceRecordId, toString_pos h] at hcolon
  exact colon_not_mem_toString _ hcolon

/-- It names its run and its place. -/
theorem fallback_injective {context context' : MetEvidenceContext} {n n' : Nat}
    (h : sourceRecordId context none n = sourceRecordId context' none n') :
    context.ingestionRunId = context'.ingestionRunId ∧ n = n' := by
  have hlist := congrArg String.toList h
  simp only [sourceRecordId, String.toList_append, List.append_assoc] at hlist
  obtain ⟨hrun, hplace⟩ := List.append_inj hlist (by rw [UUID.length_str, UUID.length_str])
  refine ⟨UUID.str_injective (String.toList_inj.mp hrun), ?_⟩
  exact toString_injective (String.toList_inj.mp (List.append_cancel_left hplace))

theorem objectId_injective {context : MetEvidenceContext} {n n' : Nat} {m m' : Int} (hm : 0 < m)
    (hm' : 0 < m')
    (h : sourceRecordId context (some m) n = sourceRecordId context (some m') n') : m = m' := by
  rw [sourceRecordId, sourceRecordId, toString_pos hm, toString_pos hm'] at h
  have hnat := toString_injective h
  omega

variable {fromisoformat : String → Bool} {context : MetEvidenceContext} {recordIds : Nat → UUID}
  {s : ReaderState} {done : List CsvRow}

theorem getElem?_of_mem_take {j : Nat} {row : CsvRow} (h : row ∈ done.take j) :
    ∃ k < j, done[k]? = some row := by
  obtain ⟨k, hk, rfl⟩ := List.mem_take_iff_getElem.mp h
  exact ⟨k, by omega, List.getElem?_eq_getElem (by omega)⟩

/-- The item at a place, and its row. -/
theorem Reads.item (h : Reads fromisoformat context s done) {i : Nat} {item : BronzeRecordEvidence}
    (hi : s.yielded[i]? = some item) : ∃ row, done[i]? = some row ∧
      Classified fromisoformat context (done.take i) row item := by
  have hlt : i < done.length := by
    rw [← h.length]
    exact (List.getElem?_eq_some_iff.mp hi).1
  have hsplit : done = done.take i ++ done[i] :: done.drop (i + 1) := by
    rw [List.getElem_cons_drop, List.take_append_drop]
  obtain ⟨item', hitem', hof⟩ := h.classified _ _ _ hsplit
  rw [List.length_take_of_le (Nat.le_of_lt hlt), hi] at hitem'
  cases hitem'
  exact ⟨done[i], List.getElem?_eq_getElem hlt, hof⟩

/-- The identity of the item at a place. -/
theorem Classified.identity {before : List CsvRow} {row : CsvRow} {item : BronzeRecordEvidence}
    (h : Classified fromisoformat context before row item) : ∃ n, row.sourceRowNumber = some n ∧
      item.provenance.sourceRecordId = sourceRecordId context row.objectId n := h.recordId

/-- Two rows that are not rejected have two identities. -/
theorem Reads.distinct (h : Reads fromisoformat context s done)
    (hnumbers : (done.map (·.sourceRowNumber)).Nodup) {i j : Nat} {a b : BronzeRecordEvidence}
    (ha : s.yielded[i]? = some a) (hb : s.yielded[j]? = some b) (hij : i < j)
    (hkept : b.result.outcome ≠ .rejected) :
    a.provenance.sourceRecordId ≠ b.provenance.sourceRecordId := by
  intro heq
  obtain ⟨row, hrow, hrowa⟩ := h.item ha
  obtain ⟨row', hrow', hrowb⟩ := h.item hb
  obtain ⟨n, hn, hida⟩ := hrowa.identity
  obtain ⟨n', hn', hidb⟩ := hrowb.identity
  rw [hida, hidb] at heq
  cases hobject : row.objectId with
  | none =>
    cases hobject' : row'.objectId with
    | none =>
      -- the same place twice
      rw [hobject, hobject'] at heq
      have hsame : (done.map (·.sourceRowNumber))[i]? = (done.map (·.sourceRowNumber))[j]? := by
        rw [List.getElem?_map, List.getElem?_map, hrow, hrow', Option.map_some, Option.map_some, hn,
          hn', (fallback_injective heq).2]
      have hlt : i < (done.map (·.sourceRowNumber)).length := by
        rw [List.length_map]
        exact (List.getElem?_eq_some_iff.mp hrow).1
      exact Nat.ne_of_lt hij ((List.getElem?_inj hlt hnumbers).mp hsame)
    | some m =>
      rw [hobject, hobject'] at heq
      exact fallback_ne_objectId _ _ _ _ (parsePositiveObjectId_pos hobject') heq
  | some m =>
    cases hobject' : row'.objectId with
    | none =>
      rw [hobject, hobject'] at heq
      exact fallback_ne_objectId _ _ _ _ (parsePositiveObjectId_pos hobject) heq.symm
    | some m' =>
      -- the later of the two would have been rejected
      rw [hobject, hobject'] at heq
      obtain rfl := objectId_injective (parsePositiveObjectId_pos hobject)
        (parsePositiveObjectId_pos hobject') heq
      have hearlier : row ∈ done.take j := by
        refine List.mem_iff_getElem?.mpr ⟨i, ?_⟩
        rw [List.getElem?_take_of_lt hij, hrow]
      exact hkept (hrowb.rejected.mpr ⟨m, hobject', row, hearlier, hobject⟩)

/-- The first row with the Object ID of a rejected one is not rejected. -/
theorem Reads.first (h : Reads fromisoformat context s done) {j : Nat} {b : BronzeRecordEvidence}
    (hb : s.yielded[j]? = some b) (hrejected : b.result.outcome = .rejected) :
    ∃ i < j, ∃ a, s.yielded[i]? = some a ∧ a.result.outcome ≠ .rejected ∧
      a.provenance.sourceRecordId = b.provenance.sourceRecordId := by
  classical
  obtain ⟨row', hrow', hrowb⟩ := h.item hb
  obtain ⟨m, hm, earlier, hearlier, hsame⟩ := hrowb.rejected.mp hrejected
  obtain ⟨k, hkj, hk⟩ := getElem?_of_mem_take hearlier
  -- the first row with this Object ID
  have hex : ∃ i, ∃ row : CsvRow, done[i]? = some row ∧ row.objectId = some m := ⟨k, earlier, hk, hsame⟩
  obtain ⟨row, hrow, hobject⟩ := Nat.find_spec hex
  have hmin := fun i => Nat.find_min (m := i) hex
  have hle : Nat.find hex ≤ k := Nat.find_min' hex ⟨earlier, hk, hsame⟩
  generalize Nat.find hex = i at hrow hmin hle
  have hlt : i < s.yielded.length := by
    rw [h.length]
    exact (List.getElem?_eq_some_iff.mp hrow).1
  obtain ⟨row'', hrow'', hrowa⟩ := h.item (List.getElem?_eq_getElem hlt)
  rw [hrow] at hrow''
  cases hrow''
  refine ⟨i, by omega, s.yielded[i], List.getElem?_eq_getElem hlt, fun hbad => ?_, ?_⟩
  · obtain ⟨m', hm', before, hbefore, hsame'⟩ := hrowa.rejected.mp hbad
    rw [hobject] at hm'
    cases hm'
    obtain ⟨l, hli, hl⟩ := getElem?_of_mem_take hbefore
    exact hmin l hli ⟨before, hl, hsame'⟩
  · obtain ⟨n, -, hida⟩ := hrowa.identity
    obtain ⟨n', -, hidb⟩ := hrowb.identity
    rw [hida, hidb, hobject, hm]
    rfl

variable (fromisoformat context recordIds)

/-- The identities of one snapshot, and against any other. -/
theorem identities {scan : CsvScan} (hnumbers : (scan.rows.map (·.sourceRowNumber)).Nodup) :
    (∀ (i j : Nat) (a b : BronzeRecordEvidence),
      (iterEvidence fromisoformat context recordIds scan).items[i]? = some a →
      (iterEvidence fromisoformat context recordIds scan).items[j]? = some b →
      a.result.outcome ≠ .rejected → b.result.outcome ≠ .rejected →
      a.provenance.sourceRecordId = b.provenance.sourceRecordId → i = j) ∧
    (∀ (j : Nat) (b : BronzeRecordEvidence),
      (iterEvidence fromisoformat context recordIds scan).items[j]? = some b →
      b.result.outcome = .rejected → ∃! i, i < j ∧ ∃ a : BronzeRecordEvidence,
        (iterEvidence fromisoformat context recordIds scan).items[i]? = some a ∧
        a.result.outcome ≠ .rejected ∧
        a.provenance.sourceRecordId = b.provenance.sourceRecordId) ∧
    ∀ fromisoformat' context' recordIds' scan',
      ∀ a ∈ (iterEvidence fromisoformat context recordIds scan).items,
      ∀ b ∈ (iterEvidence fromisoformat' context' recordIds' scan').items,
        a.result.outcome = .quarantined →
        (b.result.outcome ≠ .quarantined → a.provenance.sourceRecordId ≠ b.provenance.sourceRecordId) ∧
        (b.result.outcome = .quarantined → context.ingestionRunId ≠ context'.ingestionRunId →
          a.provenance.sourceRecordId ≠ b.provenance.sourceRecordId) := by
  obtain ⟨s, done, hread, hreads, hitems, -⟩ :=
    iterEvidence_keeps (reads_step fromisoformat context recordIds) .empty scan
  have hdone : (done.map (·.sourceRowNumber)).Nodup :=
    hnumbers.sublist (hread.sublist.map _)
  rw [hitems]
  have distinct : ∀ (i j : Nat) (a b : BronzeRecordEvidence),
      s.yielded[i]? = some a → s.yielded[j]? = some b →
      a.result.outcome ≠ .rejected → b.result.outcome ≠ .rejected →
      a.provenance.sourceRecordId = b.provenance.sourceRecordId → i = j := by
    intro i j a b ha hb hkepta hkeptb heq
    rcases Nat.lt_trichotomy i j with hlt | rfl | hlt
    · exact absurd heq (hreads.distinct hdone ha hb hlt hkeptb)
    · rfl
    · exact absurd heq.symm (hreads.distinct hdone hb ha hlt hkepta)
  refine ⟨distinct, fun j b hb hrejected => ?_, ?_⟩
  · obtain ⟨i, hij, a, ha, hkept, hsame⟩ := hreads.first hb hrejected
    refine ⟨i, ⟨hij, a, ha, hkept, hsame⟩, ?_⟩
    rintro i' ⟨-, a', ha', hkept', hsame'⟩
    exact distinct i' i a' a ha' ha hkept' hkept (hsame'.trans hsame.symm)
  · intro fromisoformat' context' recordIds' scan' a ha b hb hquarantined
    obtain ⟨s', done', -, hreads', hitems', -⟩ :=
      iterEvidence_keeps (reads_step fromisoformat' context' recordIds') .empty scan'
    rw [hitems'] at hb
    obtain ⟨i, hi⟩ := List.mem_iff_getElem?.mp ha
    obtain ⟨j, hj⟩ := List.mem_iff_getElem?.mp hb
    obtain ⟨row, -, hrow⟩ := hreads.item hi
    obtain ⟨row', -, hrow'⟩ := hreads'.item hj
    obtain ⟨n, -, hida⟩ := hrow.identity
    obtain ⟨n', -, hidb⟩ := hrow'.identity
    rw [hida, hidb, hrow.quarantined.mp hquarantined]
    refine ⟨fun hparsed => ?_, fun hquarantined' hruns => ?_⟩
    · cases hobject : row'.objectId with
      | none => exact absurd (hrow'.quarantined.mpr hobject) hparsed
      | some m => exact fallback_ne_objectId _ _ _ _ (parsePositiveObjectId_pos hobject)
    · rw [hrow'.quarantined.mp hquarantined']
      exact fun heq => hruns (fallback_injective heq).1

/-- The third row is rejected, and names the first. -/
theorem identities_sample : ∃ b,
    (iterEvidence (fun _ => true) sampleContext (fun _ => sampleId) (sampleScan true)).items[2]? =
      some b ∧
    b.provenance.sourceRecordId = "7" ∧ ∃! i, i < 2 ∧ ∃ a : BronzeRecordEvidence,
      (iterEvidence (fun _ => true) sampleContext (fun _ => sampleId) (sampleScan true)).items[i]? =
        some a ∧ a.result.outcome ≠ .rejected ∧
      a.provenance.sourceRecordId = b.provenance.sourceRecordId := by
  have hnumbers : ((sampleScan true).rows.map (·.sourceRowNumber)).Nodup := by decide
  have hone := (identities (fun _ => true) sampleContext (fun _ => sampleId) hnumbers).2.1
  have hitems : iterEvidence (fun _ => true) sampleContext (fun _ => sampleId) (sampleScan true) = _ :=
    sample_items _ _ true none
  rw [hitems] at hone ⊢
  exact ⟨_, rfl, rfl, hone 2 _ rfl rfl⟩

end EvidenceCartographer.Sources.Met
