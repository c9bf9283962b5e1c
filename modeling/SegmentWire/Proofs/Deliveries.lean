import SegmentWire.CommandLine.Directory
import SegmentWire.CommandLine.Run
import SegmentWire.Proofs.Inspections
import SegmentWire.Proofs.RoundTrip

/-!
# Deliveries and inspections

What is reported of a message that goes to a file is what the sender meant to send.
What an inspection reports is read from the bytes of the file. Both reports agree,
as long as the file is read back as it was written and no two of the segments
involved collide. A directory in memory keeps its files.
-/
namespace SegmentWire

/-- A file of the given name is read back as it was written. -/
def FileAccess.ReadsBack {σ : Type} (files : FileAccess (StateM σ)) (name : String) : Prop :=
  ∀ bs before after, (files.write name bs).run before = (.ok (), after) →
    ((files.read name).run after).1 = .ok bs

namespace Directory

lemma find?_put (directory : Directory) (name : String) (contents : Bytes) :
    (directory.put name contents).find? name = some contents := by
  obtain ⟨files⟩ := directory
  unfold put find?
  by_cases hfound : (files.lookup name).isSome
  · rw [if_pos hfound]
    induction files with
    | nil => simp at hfound
    | cons file files ih =>
      obtain ⟨other, old⟩ := file
      by_cases hname : other = name
      · simp [hname]
      · have hskip : (name == other) = false := beq_false_of_ne (Ne.symm hname)
        rw [List.lookup_cons, hskip] at hfound
        simpa [List.lookup_cons, hname, hskip] using ih hfound
  · rw [if_neg hfound]
    rw [Option.not_isSome_iff_eq_none] at hfound
    simp [List.lookup_append, hfound]

/-- Only a file of the directory can be written, and then it is read back. -/
theorem read_of_write {directory after : Directory} {path : String} {contents : Bytes}
    (h : directory.write path contents = .ok after) : after.read path = .ok contents := by
  unfold write at h
  split at h
  · cases h
  · rename_i hlength
    unfold read
    rw [if_neg hlength]
    cases hplace : place path with
    | file name =>
      simp only [hplace] at h
      split at h
      · cases h
      · cases h
        simp only [find?_put]
    | top => simp [hplace] at h
    | subdirectory name => simp [hplace] at h
    | within name => simp [hplace] at h
    | elsewhere name slashed => cases slashed <;> simp [hplace] at h

lemma run_access_write (directory : Directory) (name : String) (contents : Bytes) :
    (access.write name contents).run directory =
      match directory.write name contents with
      | .ok after => (.ok (), after)
      | .error fault => (.error fault, directory) := by
  simp only [access, StateT.run_bind, StateT.run_get, pure_bind]
  cases directory.write name contents with
  | ok after => rfl
  | error fault => rfl

/-- A directory in memory keeps what is written. -/
theorem access_readsBack (name : String) : access.ReadsBack name := by
  intro bs before after h
  rw [run_access_write] at h
  cases hwrite : before.write name bs with
  | ok directory =>
    rw [hwrite] at h
    cases h
    exact read_of_write hwrite
  | error fault =>
    rw [hwrite] at h
    cases h

end Directory

/-! ### Delivering a message -/

namespace Command

variable {σ : Type} {files : FileAccess (StateM σ)} {before after : σ}

lemma run_writeFile (files : FileAccess (StateM σ)) (name : String) (bs : Bytes) (before : σ) :
    (writeFile files name bs).run.run before =
      match (files.write name bs).run before with
      | (.ok (), after) => (.ok (), after)
      | (.error cause, after) => (.error (.file name cause), after) := by
  rcases hwrite : (files.write name bs).run before with ⟨result, after⟩
  have hlift : (liftM (files.write name bs) :
      ExceptT CommandFault (StateM σ) (Except FileFault Unit)).run.run before =
        (.ok result, after) := by
    show (Except.ok <$> files.write name bs : StateM σ _).run before = _
    rw [StateT.run_map, hwrite]
    rfl
  unfold writeFile
  rw [ExceptT.run_bind, StateT.run_bind, hlift]
  cases result with
  | ok _ => rfl
  | error cause => rfl

variable {cache segments : List Segment} {source destination : IsdAsn} {output : String}

lemma run_encodeToFile {message : EncodedMessage}
    (h : SegmentWire.encode {} cache segments source destination = .ok message) :
    (encodeToFile files cache segments source destination output).run.run before =
      match (files.write output message.bytes).run before with
      | (.ok (), after) => (.ok (.ofMessage output cache segments message), after)
      | (.error cause, after) => (.error (.file output cause), after) := by
  unfold encodeToFile
  rw [h, orCodecFault, pure_bind, ExceptT.run_bind, StateT.run_bind, run_writeFile]
  rcases (files.write output message.bytes).run before with ⟨result, after⟩
  cases result with
  | ok _ => rfl
  | error cause => rfl

/-- A message is delivered by encoding it and writing its bytes. -/
theorem encodeToFile_eq_ok_iff {delivery : Delivery} :
    (encodeToFile files cache segments source destination output).run.run before =
        (.ok delivery, after) ↔
      ∃ message, SegmentWire.encode {} cache segments source destination = .ok message ∧
        (files.write output message.bytes).run before = (.ok (), after) ∧
        delivery = .ofMessage output cache segments message := by
  constructor
  · intro h
    cases hencode : SegmentWire.encode {} cache segments source destination with
    | error cause =>
      unfold encodeToFile at h
      rw [hencode] at h
      cases h
    | ok message =>
      rw [run_encodeToFile hencode] at h
      rcases hwrite : (files.write output message.bytes).run before with ⟨result, written⟩
      rw [hwrite] at h
      cases result with
      | ok _ =>
        cases h
        exact ⟨message, rfl, hwrite, rfl⟩
      | error cause => cases h
  · rintro ⟨message, hencode, hwrite, rfl⟩
    rw [run_encodeToFile hencode, hwrite]

end Command

/-- A message that has been delivered to a file is inspected as it was reported: with the same
records in the same order, the same size, as many accepted records as segments were requested, and
the given addresses. -/
theorem delivery_inspection {σ : Type} {files : FileAccess (StateM σ)}
    {cache segments : List Segment} {source destination : IsdAsn} {output : String}
    {delivery : Delivery} {before after : σ} (readsBack : files.ReadsBack output)
    (distinct : CollisionFree (involved cache segments))
    (h : (Command.encodeToFile files cache segments source destination output).run.run before =
      (.ok delivery, after)) :
    ∃ bs inspection, ((files.read output).run after).1 = .ok bs ∧
      Inspection.ofMessage bs cache = .ok inspection ∧
      inspection.records.map InspectedRecord.summary = delivery.sent ∧
      inspection.size = delivery.size ∧
      (inspection.records.filter InspectedRecord.accepted).length = delivery.requested ∧
      inspection.header.source = source ∧ inspection.header.destination = destination := by
  obtain ⟨message, hencode, hwrite, rfl⟩ := Command.encodeToFile_eq_ok_iff.mp h
  obtain ⟨hfits, rfl⟩ := (encode_eq_ok_iff {} distinct source destination message).mp hencode
  have hdecode := decode_ofNotices (notices_coherent cache segments) hfits source destination
  obtain ⟨inspection, hinspection, hdescribes⟩ := Inspection.describes_of_decode hdecode
  refine ⟨_, inspection, readsBack _ _ _ hwrite, hinspection, hdescribes.summaries_eq,
    hdescribes.size_eq, ?_, hdescribes.source_eq, hdescribes.destination_eq⟩
  rw [hdescribes.length_accepted]
  exact length_acceptedSegments_notices cache segments

/-- A tree is delivered over one of its leaves, which is cached, and then the leaf itself. -/
theorem delivery_inspection_tree :
    ∃ delivery after bs inspection,
      (Command.encodeToFile Directory.access [Sample.literal 4 4]
        [Sample.tree 1 2, Sample.literal 4 4] ⟨1⟩ ⟨2⟩ "tree.bin").run.run ⟨[]⟩ =
          (.ok delivery, after) ∧
      after.read "tree.bin" = .ok bs ∧
      Inspection.ofMessage bs [Sample.literal 4 4] = .ok inspection ∧
      inspection.records.map InspectedRecord.summary = delivery.sent ∧
      (inspection.records.filter InspectedRecord.accepted).length = 2 := by
  have distinct : CollisionFree (involved [Sample.literal 4 4]
      [Sample.tree 1 2, Sample.literal 4 4]) := by
    decide +kernel
  have hfits : Fits {} [Sample.literal 4 4]
      (notices [Sample.literal 4 4] [Sample.tree 1 2, Sample.literal 4 4]) := by
    decide +kernel
  have hencode := (encode_eq_ok_iff {} distinct ⟨1⟩ ⟨2⟩ _).mpr ⟨hfits, rfl⟩
  have hwrite : ∀ bs, (Directory.access.write "tree.bin" bs).run ⟨[]⟩ =
      (.ok (), ⟨[("tree.bin", bs)]⟩) := by
    intro bs
    rfl
  have hrun := Command.encodeToFile_eq_ok_iff.mpr ⟨_, hencode, hwrite _, rfl⟩
  obtain ⟨bs, inspection, hread, hinspection, hsummaries, -, haccepted, -⟩ :=
    delivery_inspection (Directory.access_readsBack "tree.bin") distinct hrun
  exact ⟨_, _, bs, inspection, hrun, hread, hinspection, hsummaries, haccepted⟩

end SegmentWire
