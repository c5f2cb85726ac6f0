import MicroEmu.Library.Chunks
import MicroEmu.Library.Parts
import MicroEmu.Wire.Frame
import Mathlib.Algebra.Group.Nat.Defs

/-!
# Images to a Stream Deck

An image is sent in output reports of a fixed size, each with a header.  The driver tries a
report again when a write falls short, with a handle that it opens anew, and gives the image
up when that has not helped often enough.  What the device has taken whole by then is a front
of the reports, and the header of the next image starts anew.
-/

namespace MicroEmu
namespace Controllers

open Library (Part partsOf assemble assemble_append assemble_partsOf assemble_take_partsOf
  flatten_toChunks length_of_mem_toChunks exists_toChunks_concat length_partsOf)
open Wire (fromLeBytes toLeBytes)

/-- `OUTPUT_REPORT_BYTES`. -/
def outputReportBytes : Nat := 1024

/-- `HID_WRITE_RETRIES`. -/
def hidWriteRetries : Nat := 4

/-! ## Reports -/

/-- The bytes in front of the length: the command, and for a key or the window the mark of the
last report. -/
def imageCommand (command target extra : UInt8) (last : Bool) : List UInt8 :=
  let mark : UInt8 := if last then 1 else 0
  if command = 0x07 then [0x02, command, target, mark]
  else if command = 0x0b then [0x02, command, 0, mark]
  else [0x02, command, target, extra]

/-- A report of `send_image`. -/
def imageReport (command target extra : UInt8) (last : Bool) (index : Nat)
    (chunk : List UInt8) : List UInt8 :=
  let filled := imageCommand command target extra last ++
    toLeBytes (UInt16.ofNat chunk.length) ++ toLeBytes (UInt16.ofNat index) ++ chunk
  filled ++ List.replicate (outputReportBytes - filled.length) 0

/-- The reports of an image. -/
def imageReports (command target : UInt8) (image : List UInt8) (extra : UInt8)
    (headerLen : Nat) : List (List UInt8) :=
  let capacity := outputReportBytes - headerLen
  let totalChunks := (image.length + capacity - 1) / capacity
  (image.toChunks capacity).zipIdx.map fun chunk =>
    imageReport command target extra (decide (chunk.2 + 1 = totalChunks)) chunk.2 chunk.1

/-! ## Writing -/

/-- How often something was written, and the reports that the device has taken whole. -/
structure HidPort where
  attempts : Nat
  taken : List (List UInt8)
  deriving DecidableEq, Repr

/-- A device that has just been opened. -/
def HidPort.new : HidPort := ⟨0, []⟩

/-- One more attempt. -/
def HidPort.tried (port : HidPort) : HidPort := { port with attempts := port.attempts + 1 }

/-- A report taken whole. -/
def HidPort.takes (port : HidPort) (report : List UInt8) : HidPort :=
  { port.tried with taken := port.taken ++ [report] }

/-- What is wrong with a write, if anything is. -/
def shortfall (length : Nat) : Except String Nat → Option String
  | .ok written =>
      if written = length then none
      else some ("short write: " ++ toString written ++ "/" ++ toString length)
  | .error error => some error

variable (device : Nat → Except String Nat)

/-- The attempts to write a report, `left` of them behind the next one; the device answers
each in turn.  What came of opening the handle again is not in the result, since the next
attempt overwrites it. -/
def writeReport (report : List UInt8) : Nat → HidPort → Except String Unit × HidPort
  | 0, port =>
      match shortfall report.length (device port.attempts) with
      | none => (.ok (), port.takes report)
      | some error => (.error error, port.tried)
  | left + 1, port =>
      match shortfall report.length (device port.attempts) with
      | none => (.ok (), port.takes report)
      | some _ => writeReport report left port.tried

/-- The loop over the reports. -/
def writeReports : List (List UInt8) → HidPort → Except String Unit × HidPort
  | [], port => (.ok (), port)
  | report :: reports, port =>
      let written := writeReport device report hidWriteRetries port
      match written.1 with
      | .error error =>
          (.error ("Stream Deck image report failed after retries: " ++ error), written.2)
      | .ok () => writeReports reports written.2

/-- `send_image`. -/
def sendImage (command target : UInt8) (image : List UInt8) (extra : UInt8) (headerLen : Nat) :
    HidPort → Except String Unit × HidPort :=
  writeReports device (imageReports command target image extra headerLen)

/-- `write_key_image`. -/
def writeKeyImage (key : Nat) (image : List UInt8) : HidPort → Except String Unit × HidPort :=
  sendImage device 0x07 (UInt8.ofNat key) image 0 8

/-- The image of the window in `flush_display_context`. -/
def writeWindowImage (image : List UInt8) : HidPort → Except String Unit × HidPort :=
  sendImage device 0x0b 0 image 0 8

/-- Where an image is shown. -/
inductive Surface where
  | key (index : UInt8)
  | window
  deriving DecidableEq, Repr

/-- The image of a key or of the window. -/
def writeImage (send : Surface × List UInt8) : HidPort → Except String Unit × HidPort :=
  match send.1 with
  | .key index => writeKeyImage device index.toNat send.2
  | .window => writeWindowImage device send.2

/-- Images one after another, with what came of each. -/
def writeImages : List (Surface × List UInt8) → HidPort →
    List (Except String Unit) × HidPort
  | [], port => ([], port)
  | send :: sends, port =>
      let first := writeImage device send port
      let rest := writeImages sends first.2
      (first.1 :: rest.1, rest.2)

/-! ## What comes of the attempts -/

/-- The attempts from a number on have all fallen short; the text is that of the last. -/
def GaveUp (device : Nat → Except String Nat) (length left first : Nat) (error : String) :
    Prop :=
  (∀ attempt ≤ left, (shortfall length (device (first + attempt))).isSome) ∧
    shortfall length (device (first + left)) = some error

theorem writeReport_spec (report : List UInt8) (left : Nat) (port : HidPort) :
    ((writeReport device report left port).1 = .ok () ∧
        (writeReport device report left port).2.taken = port.taken ++ [report]) ∨
      ∃ error, (writeReport device report left port).1 = .error error ∧
        (writeReport device report left port).2.taken = port.taken ∧
        GaveUp device report.length left port.attempts error := by
  induction left generalizing port with
  | zero =>
      rw [writeReport]
      cases hwrite : shortfall report.length (device port.attempts) with
      | none => exact .inl ⟨rfl, rfl⟩
      | some error =>
          refine .inr ⟨error, rfl, rfl, fun attempt hattempt => ?_, hwrite⟩
          rw [Nat.le_zero.mp hattempt, Nat.add_zero, hwrite]
          rfl
  | succ left ih =>
      rw [writeReport]
      cases hwrite : shortfall report.length (device port.attempts) with
      | none => exact .inl ⟨rfl, rfl⟩
      | some error =>
          rcases ih port.tried with hdone | ⟨text, herror, htaken, hshort, hlast⟩
          · exact .inl hdone
          · have hnext (attempt : Nat) :
                port.tried.attempts + attempt = port.attempts + (attempt + 1) :=
              Nat.add_right_comm port.attempts 1 attempt
            refine .inr ⟨text, herror, htaken, fun attempt hattempt => ?_, ?_⟩
            · cases attempt with
              | zero =>
                  rw [Nat.add_zero, hwrite]
                  rfl
              | succ attempt =>
                  rw [← hnext]
                  exact hshort attempt (Nat.le_of_succ_le_succ hattempt)
            · rw [← hnext]
              exact hlast

/-- Reports are given up: a front of them is taken, and then the device refuses the next one as
often as it is tried, which is from the first attempt behind those of the front on. -/
structure GivenUp (device : Nat → Except String Nat) (length : Nat) (reports : List (List UInt8))
    (port : HidPort) (error : String) (count : Nat) : Prop where
  less : count < reports.length
  front : (writeReports device (reports.take count) port).1 = .ok ()
  refused : GaveUp device length hidWriteRetries
    (writeReports device (reports.take count) port).2.attempts error

/-- All reports are taken, or a front of them until they are given up. -/
theorem writeReports_spec {length : Nat} {reports : List (List UInt8)}
    (hlength : ∀ report ∈ reports, report.length = length) (port : HidPort) :
    ((writeReports device reports port).1 = .ok () ∧
        (writeReports device reports port).2.taken = port.taken ++ reports) ∨
      ∃ count error, (writeReports device reports port).1 =
          .error ("Stream Deck image report failed after retries: " ++ error) ∧
        (writeReports device reports port).2.taken = port.taken ++ reports.take count ∧
        GivenUp device length reports port error count := by
  induction reports generalizing port with
  | nil => exact .inl ⟨rfl, (List.append_nil _).symm⟩
  | cons report reports ih =>
      obtain ⟨hreport, hreports⟩ := List.forall_mem_cons.mp hlength
      rw [writeReports]
      rcases writeReport_spec device report hidWriteRetries port with
        ⟨hok, htaken⟩ | ⟨error, herror, htaken, hgave⟩
      · simp only [hok]
        rcases ih hreports (writeReport device report hidWriteRetries port).2 with
          ⟨hdone, hall⟩ | ⟨count, error, hfailed, hfront, hgiven⟩
        · refine .inl ⟨hdone, ?_⟩
          rw [hall, htaken, List.append_assoc, List.singleton_append]
        · have hnext : writeReports device ((report :: reports).take (count + 1)) port =
              writeReports device (reports.take count)
                (writeReport device report hidWriteRetries port).2 := by
            rw [List.take_succ_cons, writeReports]
            simp only [hok]
          refine .inr ⟨count + 1, error, hfailed, ?_, Nat.succ_lt_succ hgiven.less, ?_, ?_⟩
          · rw [hfront, htaken, List.append_assoc, List.singleton_append, List.take_succ_cons]
          · rw [hnext]
            exact hgiven.front
          · rw [hnext]
            exact hgiven.refused
      · simp only [herror]
        refine .inr ⟨0, error, rfl, ?_, Nat.succ_pos _, rfl, hreport ▸ hgave⟩
        rw [htaken, List.take_zero, List.append_nil]

/-! ## What a report says -/

/-- The part of an image in a report, as its header says. -/
def readReport (report : List UInt8) : Option (Part Surface UInt8) :=
  let part (place : Surface) : Part Surface UInt8 :=
    ⟨place, (fromLeBytes (report.getD 6 0) (report.getD 7 0)).toNat,
      decide (report.getD 3 0 ≠ 0),
      (report.drop 8).take (fromLeBytes (report.getD 4 0) (report.getD 5 0)).toNat⟩
  if report.getD 1 0 = 0x07 then some (part (.key (report.getD 2 0)))
  else if report.getD 1 0 = 0x0b then some (part .window)
  else none

/-- The command of a surface, and the target that goes with it. -/
def Surface.command : Surface → UInt8
  | .key _ => 0x07
  | .window => 0x0b

def Surface.target : Surface → UInt8
  | .key index => index
  | .window => 0

/-- The data of a report. -/
def chunkBytes : Nat := outputReportBytes - 8

theorem length_imageReport (surface : Surface) (last : Bool) (index : Nat) {chunk : List UInt8}
    (hchunk : chunk.length ≤ chunkBytes) :
    (imageReport surface.command surface.target 0 last index chunk).length =
      outputReportBytes := by
  have hfits : chunk.length ≤ 1016 := hchunk
  cases surface <;> cases last <;>
    simp [imageReport, imageCommand, Surface.command, toLeBytes, outputReportBytes] <;> omega

/-- A report is read as the part it was made from. -/
theorem readReport_imageReport (surface : Surface) (last : Bool) {index : Nat}
    {chunk : List UInt8} (hindex : index < 2 ^ 16) (hchunk : chunk.length ≤ chunkBytes) :
    readReport (imageReport surface.command surface.target 0 last index chunk) =
      some ⟨surface, index, last, chunk⟩ := by
  have hfits : chunk.length ≤ 1016 := hchunk
  have hbytes {value : Nat} (hvalue : value < 2 ^ 16) :
      toLeBytes (UInt16.ofNat value) =
        [UInt8.ofNat (value % 256), UInt8.ofNat (value / 256)] := by
    rw [toLeBytes, UInt16.toNat_ofNat', Nat.mod_eq_of_lt hvalue]
  have hword {value : Nat} (hvalue : value < 2 ^ 16) :
      (fromLeBytes (UInt8.ofNat (value % 256)) (UInt8.ofNat (value / 256))).toNat = value := by
    have hread := Wire.fromLeBytes_toLeBytes (UInt16.ofNat value)
    rw [UInt16.toNat_ofNat', Nat.mod_eq_of_lt hvalue] at hread
    rw [hread, UInt16.toNat_ofNat', Nat.mod_eq_of_lt hvalue]
  have hlength : chunk.length < 2 ^ 16 := by omega
  cases surface <;> cases last <;>
    simp [readReport, imageReport, imageCommand, Surface.command, Surface.target,
      hbytes hindex, hbytes hlength, hword hindex, hword hlength]

/-! ## Images -/

/-- An image of which a header can say how it is cut: it is not empty, and its reports have
numbers of their own. -/
def Sendable (image : List UInt8) : Prop := image ≠ [] ∧ image.length ≤ 2 ^ 16 * chunkBytes

/-- The parts of an image. -/
def imageParts (send : Surface × List UInt8) : List (Part Surface UInt8) :=
  partsOf send.1 (send.2.toChunks chunkBytes)

/-- The count of the chunks is what `send_image` computes. -/
theorem length_toChunks_image {image : List UInt8} (h : image ≠ []) :
    (image.toChunks chunkBytes).length = (image.length + chunkBytes - 1) / chunkBytes := by
  obtain ⟨front, last, hchunks, -, hpositive, hfits, hlength⟩ :=
    exists_toChunks_concat (show 0 < chunkBytes by decide) h
  have hbytes : chunkBytes = 1016 := rfl
  rw [hchunks, List.length_append, List.length_singleton]
  rw [hbytes] at hfits hlength ⊢
  omega

theorem length_toChunks_le {image : List UInt8} (h : Sendable image) :
    (image.toChunks chunkBytes).length ≤ 2 ^ 16 := by
  have hbytes : chunkBytes = 1016 := rfl
  have hlong := h.2
  rw [length_toChunks_image h.1]
  rw [hbytes] at hlong ⊢
  omega

/-- The reports of an image. -/
def reportsOf (send : Surface × List UInt8) : List (List UInt8) :=
  imageReports send.1.command send.1.target send.2 0 8

/-- The reports of an image, whole and read. -/
theorem reportsOf_spec {send : Surface × List UInt8} (h : Sendable send.2) :
    (∀ report ∈ reportsOf send, report.length = outputReportBytes) ∧
      (reportsOf send).map readReport = (imageParts send).map some := by
  have hchunk : ∀ chunk ∈ (send.2.toChunks chunkBytes).zipIdx,
      chunk.1.length ≤ chunkBytes ∧ chunk.2 < 2 ^ 16 := by
    intro chunk hchunk
    have hmem := List.fst_mem_of_mem_zipIdx hchunk
    have hindex := List.snd_lt_of_mem_zipIdx hchunk
    have hcount := length_toChunks_le h
    exact ⟨(length_of_mem_toChunks (by decide) hmem).2, by omega⟩
  have htotal : (send.2.length + (outputReportBytes - 8) - 1) / (outputReportBytes - 8) =
      (send.2.toChunks chunkBytes).length := (length_toChunks_image h.1).symm
  constructor
  · intro report hreport
    obtain ⟨chunk, hmem, rfl⟩ := List.mem_map.mp hreport
    exact length_imageReport send.1 _ chunk.2 (hchunk chunk hmem).1
  · rw [reportsOf, imageReports, imageParts, partsOf, List.map_map, List.map_map]
    refine List.map_congr_left fun chunk hmem => ?_
    obtain ⟨hfits, hindex⟩ := hchunk chunk hmem
    rw [Function.comp_apply, Function.comp_apply, htotal]
    exact readReport_imageReport send.1 _ hindex hfits

theorem writeImage_eq (send : Surface × List UInt8) (port : HidPort) :
    writeImage device send port = writeReports device (reportsOf send) port := by
  obtain ⟨surface, image⟩ := send
  cases surface with
  | key index =>
      have htarget : UInt8.ofNat index.toNat = index := UInt8.ofNat_toNat
      simp only [writeImage, writeKeyImage, sendImage, htarget]
      rfl
  | window => rfl

/-- What one image leaves behind, whatever was left before: it is shown, or not at all. -/
theorem writeImage_spec {send : Surface × List UInt8} (h : Sendable send.2) (port : HidPort) :
    ∃ reports, (writeImage device send port).2.taken = port.taken ++ reports ∧
      (∀ report ∈ reports, report.length = outputReportBytes) ∧
      (((writeImage device send port).1 = .ok () ∧
          ∀ unfinished, (assemble unfinished (reports.filterMap readReport)).1 = [send]) ∨
        ∃ count error, (writeImage device send port).1 =
            .error ("Stream Deck image report failed after retries: " ++ error) ∧
          GivenUp device outputReportBytes (reportsOf send) port error count ∧
          ∀ unfinished, (assemble unfinished (reports.filterMap readReport)).1 = []) := by
  obtain ⟨hlength, hread⟩ := reportsOf_spec h
  have hparts (count : Nat) :
      ((reportsOf send).take count).filterMap readReport = (imageParts send).take count := by
    have hmap := congrArg (List.filterMap id) (congrArg (List.take count) hread)
    rwa [← List.map_take, ← List.map_take, List.filterMap_map, List.filterMap_map,
      Function.id_comp, Function.id_comp, List.filterMap_some] at hmap
  have hcount : (reportsOf send).length = (send.2.toChunks chunkBytes).length := by
    rw [reportsOf, imageReports, List.length_map, List.length_zipIdx]
    rfl
  have hnonempty : send.2.toChunks chunkBytes ≠ [] := by
    intro hnil
    have hflatten := flatten_toChunks (show 0 < chunkBytes by decide) send.2
    rw [hnil] at hflatten
    exact h.1 hflatten.symm
  rw [writeImage_eq]
  rcases writeReports_spec device hlength port with
    ⟨hok, htaken⟩ | ⟨count, error, herror, htaken, hgiven⟩
  · refine ⟨_, htaken, hlength, .inl ⟨hok, fun unfinished => ?_⟩⟩
    have hall := hparts (reportsOf send).length
    rw [List.take_length, List.take_of_length_le (by
      rw [imageParts, length_partsOf, hcount])] at hall
    rw [hall, imageParts, assemble_partsOf send.1 hnonempty unfinished,
      flatten_toChunks (by decide)]
  · refine ⟨_, htaken, fun report hreport => hlength report (List.mem_of_mem_take hreport),
      .inr ⟨count, error, herror, hgiven, fun unfinished => ?_⟩⟩
    rw [hparts count, imageParts]
    exact assemble_take_partsOf send.1 _ (hcount ▸ hgiven.less) unfinished

/-! ## Runs -/

/-- What the device puts together from the reports it has taken. -/
def shownImages (port : HidPort) : List (Surface × List UInt8) :=
  (assemble none (port.taken.filterMap readReport)).1

/-- The images that were sent with no error. -/
def sentImages (sends : List (Surface × List UInt8)) (results : List (Except String Unit)) :
    List (Surface × List UInt8) :=
  ((sends.zip results).filter fun send => send.2.toBool).map Prod.fst

theorem writeImages_spec {sends : List (Surface × List UInt8)}
    (h : ∀ send ∈ sends, Sendable send.2) (port : HidPort) :
    ∃ reports, (writeImages device sends port).2.taken = port.taken ++ reports ∧
      (∀ report ∈ reports, report.length = outputReportBytes) ∧
      (writeImages device sends port).1.length = sends.length ∧
      (∀ index error, (writeImages device sends port).1[index]? = some (.error error) →
        ∃ send count text, sends[index]? = some send ∧
          error = "Stream Deck image report failed after retries: " ++ text ∧
          GivenUp device outputReportBytes (reportsOf send)
            (writeImages device (sends.take index) port).2 text count) ∧
      ∀ unfinished, (assemble unfinished (reports.filterMap readReport)).1 =
        sentImages sends (writeImages device sends port).1 := by
  induction sends generalizing port with
  | nil =>
      exact ⟨[], (List.append_nil _).symm, fun _ hmem => absurd hmem List.not_mem_nil, rfl,
        fun _ _ hmem => (nomatch hmem), fun _ => rfl⟩
  | cons send sends ih =>
      obtain ⟨hsend, hsends⟩ := List.forall_mem_cons.mp h
      obtain ⟨front, hfront, hfrontLength, houtcome⟩ :=
        writeImage_spec device hsend port
      obtain ⟨back, hback, hbackLength, hcount, herrors, hshown⟩ :=
        ih hsends (writeImage device send port).2
      refine ⟨front ++ back, ?_, ?_, congrArg (· + 1) hcount, ?_, fun unfinished => ?_⟩
      · rw [writeImages, hback, hfront, List.append_assoc]
      · intro report hreport
        rcases List.mem_append.mp hreport with hreport | hreport
        · exact hfrontLength report hreport
        · exact hbackLength report hreport
      · intro index error herror
        cases index with
        | zero =>
            have hfirst : (writeImage device send port).1 = .error error := Option.some.inj herror
            rcases houtcome with ⟨hok, -⟩ | ⟨count, text, hfailed, hgiven, -⟩
            · rw [hok] at hfirst
              cases hfirst
            · rw [hfailed] at hfirst
              obtain rfl := Except.error.inj hfirst
              exact ⟨send, count, text, rfl, rfl, hgiven⟩
        | succ index => exact herrors index error herror
      · rw [List.filterMap_append, assemble_append]
        simp only [hshown, writeImages]
        -- an image that is given up leaves nothing for the ones behind it
        rcases houtcome with ⟨hok, hone⟩ | ⟨count, text, hfailed, -, hnone⟩
        · rw [hone, hok]
          rfl
        · rw [hnone, hfailed]
          rfl

/-- However the writes of a run fall short, the device puts together exactly the images that
were sent with no error, in order.  An image is given up only when, behind a front of its reports
that were taken, all five writes of the next one have fallen short, and the error says what was
wrong with the last; so a device that takes one of any five writes shows all of them. -/
theorem images_shown (device : Nat → Except String Nat) {sends : List (Surface × List UInt8)}
    (h : ∀ send ∈ sends, Sendable send.2) :
    shownImages (writeImages device sends .new).2 =
        sentImages sends (writeImages device sends .new).1 ∧
      (∀ report ∈ (writeImages device sends .new).2.taken, report.length = 1024) ∧
      (∀ index error, (writeImages device sends .new).1[index]? = some (.error error) →
        ∃ send count text, sends[index]? = some send ∧
          error = "Stream Deck image report failed after retries: " ++ text ∧
          GivenUp device 1024 (reportsOf send) (writeImages device (sends.take index) .new).2 text
            count) ∧
      ((∀ first, ∃ attempt ≤ 4, shortfall 1024 (device (first + attempt)) = none) →
        shownImages (writeImages device sends .new).2 = sends) := by
  obtain ⟨reports, htaken, hlength, hcount, herrors, hshown⟩ :=
    writeImages_spec device h .new
  have hall : shownImages (writeImages device sends .new).2 =
      sentImages sends (writeImages device sends .new).1 := by
    rw [shownImages, htaken]
    exact hshown none
  refine ⟨hall, ?_, herrors, fun htakes => ?_⟩
  · rw [htaken]
    exact hlength
  · rw [hall]
    have hok : ∀ result ∈ (writeImages device sends .new).1, result.toBool = true := by
      intro result hresult
      cases result with
      | ok value => rfl
      | error error =>
          obtain ⟨index, hindex⟩ := List.mem_iff_getElem?.mp hresult
          obtain ⟨send, count, text, -, -, hgiven⟩ := herrors index error hindex
          obtain ⟨attempt, hattempt, hnone⟩ := htakes _
          have hsome := hgiven.refused.1 attempt hattempt
          rw [show outputReportBytes = 1024 from rfl, hnone] at hsome
          cases hsome
    rw [sentImages, List.filter_eq_self.mpr fun send hsend =>
      hok send.2 (List.of_mem_zip hsend).2, List.map_fst_zip (Nat.le_of_eq hcount.symm)]

/-- Two images to a device that takes nothing of the first writes. -/
theorem images_shown_sample :
    shownImages (writeImages (fun attempt => if attempt < 3 then .ok 0 else .ok 1024)
      [(.key 3, [1, 2]), (.window, [5])] .new).2 = [(.key 3, [1, 2]), (.window, [5])] :=
  (@images_shown (fun attempt => if attempt < 3 then .ok 0 else .ok 1024)
    [(.key 3, [1, 2]), (.window, [5])] (by
      intro send hsend
      simp only [List.mem_cons, List.not_mem_nil, or_false] at hsend
      rcases hsend with rfl | rfl <;> exact ⟨by decide, by decide⟩)).2.2.2 fun first =>
    ⟨4, Nat.le_refl 4, by
      have hlate : ¬ (first + 4 < 3) := by omega
      simp only [if_neg hlate, shortfall, if_true]⟩

end Controllers
end MicroEmu
