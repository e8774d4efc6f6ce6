/-
  File:      Penetrate/Tunnel/Copy.lean
  Subject:   A COPY IS TWO SEAMS OF A CONDUIT.

  * `Pipe.stage`, `Transfer.stage` -- pipes and transfers as stages;
  * `transfer_moves`, `transfer_enabled` -- **a step of one direction of a copy is a step at one of
    its two seams, and it goes on where a seam can fill an empty stage**; `abort_moves` -- its end
    cuts the seam in front of it;
  * `CopyStep`, `copy_cases` -- what both directions do;
  * `transfer_behind`, `copy_strip` -- a copy does not see what stands at the front of a pipe it
    writes to;
  * `copyBuffer` -- a copy with a buffer, of which the documentation is true.
-/
import Penetrate.Tunnel.Forward
import Penetrate.Concurrent.Conduit

namespace Penetrate.Tunnel

open Concurrent Machine Server Wire

/-! ## 1. Pipes and transfers as stages -/

variable (P : Setup)

theorem write_eq_some {p p' : Pipe} {bs : Bytes} :
    p.write P bs = some p' ↔ p.fin = false ∧ 0 < bs.length ∧
      p.buf.length + bs.length ≤ P.window ∧ p' = { p with buf := p.buf ++ bs } := by
  unfold Pipe.write
  split
  · rename_i hg
    exact ⟨fun h => ⟨hg.1, hg.2.1, hg.2.2, (Option.some.inj h).symm⟩, fun h => h.2.2.2 ▸ rfl⟩
  · rename_i hg
    exact ⟨(fun h => by cases h), fun h => absurd ⟨h.1, h.2.1, h.2.2.1⟩ hg⟩

theorem read_eq_some {p : Pipe} {n : Nat} {r : Bytes × Pipe} :
    p.read n = some r ↔ 0 < n ∧ n ≤ p.buf.length ∧
      r = (p.buf.take n, { p with buf := p.buf.drop n }) := by
  unfold Pipe.read
  split
  · rename_i hg
    exact ⟨fun h => ⟨hg.1, hg.2, (Option.some.inj h).symm⟩, fun h => h.2.2 ▸ rfl⟩
  · rename_i hg
    exact ⟨(fun h => by cases h), fun h => absurd ⟨h.1, h.2.1⟩ hg⟩

theorem close_eq_some {p p' : Pipe} :
    p.close = some p' ↔ p.fin = false ∧ p' = { p with fin := true } := by
  unfold Pipe.close
  split
  · rename_i hg
    exact ⟨fun h => ⟨hg, (Option.some.inj h).symm⟩, fun h => h.2 ▸ rfl⟩
  · rename_i hg
    exact ⟨(fun h => by cases h), fun h => absurd h.1 hg⟩

/-- A pipe, seen as a stage of a conduit. -/
def Pipe.stage (p : Pipe) : Stage UInt8 := ⟨p.buf, p.fin, false, P.window, P.window_pos⟩

/-- The buffer of a transfer. What a failed one held is lost. -/
def Transfer.stage : Transfer → Stage UInt8
  | .running held read_done => ⟨held, read_done, false, P.copy.capacity, P.copy.capacity_pos⟩
  | .failed => ⟨[], true, true, P.copy.capacity, P.copy.capacity_pos⟩

/-- A step at one seam, or none. -/
def Moves (st st' : List (Stage UInt8)) : Prop :=
  st' = st ∨ ∃ i a, seamAt st i a = some st'

variable {P}

theorem Moves.within {st st' : List (Stage UInt8)} (front back : List (Stage UInt8))
    (h : Moves st st') : Moves (front ++ (st ++ back)) (front ++ (st' ++ back)) := by
  rcases h with rfl | ⟨i, a, h⟩
  · exact Or.inl rfl
  · exact Or.inr ⟨_, a, seamAt_within front back h⟩

/-- **A step of one direction of a copy** is a step at one of its two seams. -/
theorem transfer_moves {src src' dst dst' : Pipe} {t t' : Transfer} {a : CopyAct}
    (h : TransferStep P.window P.copy.capacity src dst t a (src', t', dst')) :
    ∃ i b, b ≠ .cut ∧ seamAt [dst.stage P, t.stage P, src.stage P] i b =
      some [dst'.stage P, t'.stage P, src'.stage P] := by
  cases h with
  | read held n hn hle hroom =>
      refine ⟨1, .move n, by simp, ?_⟩
      simp [seamAt, seam, Pipe.stage, Transfer.stage, hn, hle, hroom]
  | eof held hb hf =>
      refine ⟨1, .pass, by simp, ?_⟩
      simp [seamAt, seam, Pipe.stage, Transfer.stage, hb, hf]
  | write held read_done n hn hle hf hroom =>
      refine ⟨0, .move n, by simp, ?_⟩
      simp [seamAt, seam, Pipe.stage, Transfer.stage, hf, hn, hle, hroom]
  | shutdown hf =>
      refine ⟨0, .pass, by simp, ?_⟩
      simp [seamAt, seam, Pipe.stage, Transfer.stage, hf]

/-- Where a seam, but by the cut, can fill an empty stage, the transfer goes on. -/
theorem transfer_enabled {src dst : Pipe} {t : Transfer} {i : Nat} {b : SeamAct}
    {st : List (Stage UInt8)} (ht : t ≠ .failed) (hb : b ≠ .cut)
    (h : seamAt [dst.stage P, t.stage P, src.stage P] i b = some st)
    (he : Hungry [dst.stage P, t.stage P, src.stage P] i) :
    ∃ a r, P.copy.transfer_one_direction src t dst a = some r := by
  obtain ⟨held, read_done, rfl⟩ : ∃ held read_done, t = .running held read_done := by
    cases t with
    | running held read_done => exact ⟨held, read_done, rfl⟩
    | failed => exact absurd rfl ht
  have hsome {n : Nat} {bs : Bytes} (hn : 0 < n) (hle : n ≤ bs.length) : bs ≠ [] :=
    List.ne_nil_of_length_pos (Nat.lt_of_lt_of_le hn hle)
  match i with
  | 0 =>
      obtain ⟨⟨d', s'⟩, hs, -⟩ := Option.map_eq_some_iff.mp h
      rcases seam_cases hs with
        ⟨n, rfl, hf, -, hn, hle, -, -⟩ | ⟨-, hf, hr, hnil, -, -⟩ | ⟨rfl, -, -⟩
      · have hdst : dst.buf = [] := he _ rfl
        refine P.copy.writes src read_done (hsome hn hle) hf ?_
        rw [hdst]
        exact P.window_pos
      · obtain rfl : read_done = true := hr
        obtain rfl : held = [] := hnil
        exact P.copy.shuts src hf
      · exact absurd rfl hb
  | 1 =>
      obtain ⟨st1, h1, -⟩ := Option.map_eq_some_iff.mp h
      obtain ⟨⟨d', s'⟩, hs, -⟩ := Option.map_eq_some_iff.mp h1
      obtain rfl : held = [] := he _ rfl
      rcases seam_cases hs with
        ⟨n, rfl, hf, -, hn, hle, -, -⟩ | ⟨-, hf, hr, hnil, -, -⟩ | ⟨rfl, -, -⟩
      · obtain rfl : read_done = false := hf
        exact P.copy.reads dst (hsome hn hle)
      · obtain rfl : read_done = false := hf
        exact P.copy.ends dst hnil hr
      · exact absurd rfl hb
  | i + 2 => cases i <;> simp [seamAt] at h

/-- A transfer writes behind what is there, and does not see what stands at the front. -/
theorem transfer_behind {src dst dst' src' : Pipe} {t t' : Transfer} {a : CopyAct}
    (h : TransferStep P.window P.copy.capacity src dst t a (src', t', dst')) :
    dst.buf <+: dst'.buf ∧ ∀ k ≤ dst.buf.length,
      TransferStep P.window P.copy.capacity src { dst with buf := dst.buf.drop k } t a
        (src', t', { dst' with buf := dst'.buf.drop k }) := by
  cases h with
  | read held n hn hle hroom => exact ⟨List.prefix_refl _, fun k _ => .read held n hn hle hroom⟩
  | eof held hb hf => exact ⟨List.prefix_refl _, fun k _ => .eof held hb hf⟩
  | write held read_done n hn hle hf hroom =>
      refine ⟨List.prefix_append _ _, fun k hk => ?_⟩
      rw [List.drop_append_of_le_length hk]
      refine .write held read_done n hn hle hf ?_
      rw [List.length_drop]
      omega
  | shutdown hf => exact ⟨List.prefix_refl _, fun k _ => .shutdown hf⟩

/-! ## 2. The copy -/

/-- The stages of direction `d` of a copy, from the stream it writes to the one it reads. -/
def Copy.stages (P : Setup) (c : Copy) : Dir → List (Stage UInt8)
  | .toService => [(c.far .toService).stage P, (c.t .toService).stage P, (c.near .toService).stage P]
  | .toVisitor => [(c.near .toVisitor).stage P, (c.t .toVisitor).stage P, (c.far .toVisitor).stage P]

variable (P) in
/-- What both directions do. -/
inductive CopyStep (c : Copy) : Dir → CopyAct → Copy → Prop where
  | toService {a : CopyAct} {r : Pipe × Transfer × Pipe}
      (h : TransferStep P.window P.copy.capacity (c.near .toService) (c.far .toService)
        (c.t .toService) a r) :
      CopyStep c .toService a
        { near := Function.update c.near .toService r.1
          t := Function.update c.t .toService r.2.1
          far := Function.update c.far .toService r.2.2 }
  | toVisitor {a : CopyAct} {r : Pipe × Transfer × Pipe}
      (h : TransferStep P.window P.copy.capacity (c.far .toVisitor) (c.near .toVisitor)
        (c.t .toVisitor) a r) :
      CopyStep c .toVisitor a
        { near := Function.update c.near .toVisitor r.2.2
          t := Function.update c.t .toVisitor r.2.1
          far := Function.update c.far .toVisitor r.1 }

theorem copy_cases {c r : Copy} {d : Dir} {a : CopyAct} (h : copy_bidirectional P c d a = some r) :
    CopyStep P c d a r := by
  cases d with
  | toService =>
      obtain ⟨q, hq, rfl⟩ := Option.map_eq_some_iff.mp h
      exact .toService (P.copy.does hq)
  | toVisitor =>
      obtain ⟨q, hq, rfl⟩ := Option.map_eq_some_iff.mp h
      exact .toVisitor (P.copy.does hq)

theorem copy_moves {c c' : Copy} {d : Dir} {a : CopyAct} (h : CopyStep P c d a c') (e : Dir) :
    Moves (c.stages P e) (c'.stages P e) := by
  cases h with
  | toService ht =>
      cases e with
      | toService =>
          obtain ⟨i, b, -, hs⟩ := transfer_moves ht
          exact Or.inr ⟨i, b, by simpa [Copy.stages] using hs⟩
      | toVisitor => exact Or.inl (by simp [Copy.stages])
  | toVisitor ht =>
      cases e with
      | toService => exact Or.inl (by simp [Copy.stages])
      | toVisitor =>
          obtain ⟨i, b, -, hs⟩ := transfer_moves ht
          exact Or.inr ⟨i, b, by simpa [Copy.stages] using hs⟩

theorem abortTransfer_moves (src dst : Pipe) (t : Transfer) :
    Moves [dst.stage P, t.stage P, src.stage P]
      [(abortTransfer t dst).2.stage P, (abortTransfer t dst).1.stage P, src.stage P] := by
  unfold abortTransfer
  split
  · exact Or.inl rfl
  · refine Or.inr ⟨0, .cut, ?_⟩
    cases t <;> simp [seamAt, seam, Pipe.stage, Transfer.stage]

theorem abort_moves (c : Copy) (e : Dir) : Moves (c.stages P e) (c.abort.stages P e) := by
  cases e with
  | toService =>
      simpa [Copy.stages, Copy.abort] using
        abortTransfer_moves (P := P) (c.near .toService) (c.far .toService) (c.t .toService)
  | toVisitor =>
      simpa [Copy.stages, Copy.abort] using
        abortTransfer_moves (P := P) (c.far .toVisitor) (c.near .toVisitor) (c.t .toVisitor)

/-- What is in a data channel stays in front of what the copy writes into it. -/
theorem copy_ahead {c r : Copy} {d : Dir} {a : CopyAct} (h : CopyStep P c d a r) :
    (c.far .toService).buf <+: (r.far .toService).buf := by
  cases h with
  | toVisitor ht => simp
  | toService ht =>
      simp only [Function.update_self]
      exact (transfer_behind ht).1

/-- What is behind the command. -/
def Stream.strip (l : Stream) : Stream :=
  Function.update l .toService { l .toService with buf := (l .toService).buf.drop cmd.length }

@[simp] theorem strip_toVisitor (l : Stream) : l.strip .toVisitor = l .toVisitor := by
  simp [Stream.strip]

@[simp] theorem strip_toService (l : Stream) :
    l.strip .toService = { l .toService with buf := (l .toService).buf.drop cmd.length } := by
  simp [Stream.strip]

theorem strip_update (l : Stream) (p : Pipe) :
    Stream.strip (Function.update l .toVisitor p) = Function.update l.strip .toVisitor p := by
  funext e
  cases e <;> simp

/-- A copy does not see the command in front of what it writes to. -/
theorem copy_strip {near far : Stream} {t : Transfers} {r : Copy} {d : Dir} {a : CopyAct}
    (h : CopyStep P ⟨near, t, far⟩ d a r) (hlen : cmd.length ≤ (far .toService).buf.length) :
    CopyStep P ⟨near, t, far.strip⟩ d a ⟨r.near, r.t, r.far.strip⟩ := by
  cases h with
  | @toVisitor _ q ht =>
      rw [strip_update]
      refine .toVisitor (c := ⟨near, t, far.strip⟩) (r := q) ?_
      dsimp only
      rw [strip_toVisitor]
      exact ht
  | @toService _ q ht =>
      have hfar : Stream.strip (Function.update far .toService q.2.2) = Function.update far.strip
          .toService { q.2.2 with buf := q.2.2.buf.drop cmd.length } := by
        funext e
        cases e <;> simp [Stream.strip]
      rw [hfar]
      refine .toService (c := ⟨near, t, far.strip⟩)
        (r := (q.1, q.2.1, { q.2.2 with buf := q.2.2.buf.drop cmd.length })) ?_
      dsimp only
      rw [strip_toService]
      exact (transfer_behind ht).2 _ hlen

/-- Nor does an error. -/
theorem abortTransfer_drop (t : Transfer) (p : Pipe) (k : Nat) :
    abortTransfer t { p with buf := p.buf.drop k } =
      ((abortTransfer t p).1,
        { (abortTransfer t p).2 with buf := (abortTransfer t p).2.buf.drop k }) := by
  unfold abortTransfer
  split <;> rfl

theorem abort_strip (near far : Stream) (t : Transfers) :
    Copy.abort ⟨near, t, far.strip⟩ = ⟨(Copy.abort ⟨near, t, far⟩).near,
      (Copy.abort ⟨near, t, far⟩).t, (Copy.abort ⟨near, t, far⟩).far.strip⟩ := by
  ext e
  · rfl
  · cases e <;> simp [Copy.abort, abortTransfer_drop]
  · cases e <;> simp [Copy.abort, abortTransfer_drop]

/-! ## 3. A copy with a buffer -/

/-- One direction by way of a buffer: whatever it has room for it reads, and writes when it can. -/
def transfer_one_direction (window capacity : Nat) (src : Pipe) (t : Transfer) (dst : Pipe) :
    CopyAct → Option (Pipe × Transfer × Pipe)
  | .read n => match t with
    | .running held false =>
        if 0 < n ∧ n ≤ src.buf.length ∧ held.length + n ≤ capacity then
          some ({ src with buf := src.buf.drop n }, .running (held ++ src.buf.take n) false, dst)
        else none
    | _ => none
  | .eof => match t with
    | .running held false =>
        if src.buf = [] ∧ src.fin = true then some (src, .running held true, dst) else none
    | _ => none
  | .write n => match t with
    | .running held read_done =>
        if 0 < n ∧ n ≤ held.length ∧ dst.fin = false ∧ dst.buf.length + n ≤ window then
          some (src, .running (held.drop n) read_done, { dst with buf := dst.buf ++ held.take n })
        else none
    | _ => none
  | .shutdown => match t with
    | .running [] true =>
        if dst.fin = false then some (src, .running [] true, { dst with fin := true }) else none
    | _ => none

theorem transfer_cases {window capacity : Nat} {src dst : Pipe} {t : Transfer} {a : CopyAct}
    {r : Pipe × Transfer × Pipe} (h : transfer_one_direction window capacity src t dst a = some r) :
    TransferStep window capacity src dst t a r := by
  unfold transfer_one_direction at h
  split at h
  · rename_i n
    split at h
    · rename_i held
      split at h
      · rename_i hg
        cases h
        exact .read held n hg.1 hg.2.1 hg.2.2
      · cases h
    · cases h
  · split at h
    · rename_i held
      split at h
      · rename_i hg
        cases h
        exact .eof held hg.1 hg.2
      · cases h
    · cases h
  · rename_i n
    split at h
    · rename_i held read_done
      split at h
      · rename_i hg
        cases h
        exact .write held read_done n hg.1 hg.2.1 hg.2.2.1 hg.2.2.2
      · cases h
    · cases h
  · split at h
    · split at h
      · rename_i hf
        cases h
        exact .shutdown hf
      · cases h
    · cases h

theorem transfer_of_step {window capacity : Nat} {src dst : Pipe} {t : Transfer} {a : CopyAct}
    {r : Pipe × Transfer × Pipe} (h : TransferStep window capacity src dst t a r) :
    transfer_one_direction window capacity src t dst a = some r := by
  cases h with
  | read held n hn hle hroom => exact if_pos ⟨hn, hle, hroom⟩
  | eof held hb hf => exact if_pos ⟨hb, hf⟩
  | write held read_done n hn hle hf hroom => exact if_pos ⟨hn, hle, hf, hroom⟩
  | shutdown hf => exact if_pos hf

/-- The size of the buffer. -/
def DEFAULT_BUF_SIZE : Nat := 8 * 1024

/-- **A copy with a buffer.** -/
def copyBuffer (window : Nat) : CopyBidirectional window where
  capacity := DEFAULT_BUF_SIZE
  capacity_pos := by decide
  transfer_one_direction := transfer_one_direction window DEFAULT_BUF_SIZE
  does := transfer_cases
  reads _ h := ⟨_, _, transfer_of_step (.read [] 1 Nat.one_pos (List.length_pos_iff.mpr h)
    (by decide))⟩
  ends _ hb hf := ⟨_, _, transfer_of_step (.eof [] hb hf)⟩
  writes _ read_done h hf hroom := ⟨_, _, transfer_of_step (.write _ read_done 1 Nat.one_pos
    (List.length_pos_iff.mpr h) hf hroom)⟩
  shuts _ hf := ⟨_, _, transfer_of_step (.shutdown hf)⟩

end Penetrate.Tunnel
