import ChipEight.Proofs.Window.Cache

/-! # The frame that a window remembers

`deeds` is what has come of the calls in the life of a window: it was opened, and frames were
painted or refused. The latest of these decides which frame is passed over (`last_live`), so a frame
that was refused is passed over if it comes again at once, and is then neither painted nor refused
(`not_always_painted`). Apart from this only a painted frame is passed over, and a refusal leaves no
trace (`passed_over_iff`).
-/

namespace ChipEight.Window

/-- What has come of a call. A frame that was passed over, or came to a closed window, leaves
nothing to tell of. -/
inductive Deed
  | opened
  | painted (f : Frame)
  | refused (f : Frame) (e : Error)
deriving DecidableEq

namespace Deed

def frame? : Deed → Option Frame
  | .opened => none
  | .painted f | .refused f _ => some f

/-- The frame that was painted most recently since the window was opened. -/
def lastPainted (ds : List Deed) : Option Frame :=
  ds.foldl (fun painted d =>
    match d with
    | .opened => none
    | .painted f => some f
    | .refused _ _ => painted) none

theorem lastPainted_of_getLast? {ds : List Deed} {f : Frame} (h : ds.getLast? = some (.painted f)) :
    lastPainted ds = some f := by
  obtain ⟨before, rfl⟩ := List.getLast?_eq_some_iff.1 h
  rw [lastPainted, List.foldl_append]
  rfl

end Deed

def deed? (w : Window) : Call → Option Deed
  | .openOn windows => if (w.openOn windows).2 = none then some .opened else none
  | .present f =>
    match w.present f with
    | (_, some e) => some (.refused f e)
    | (w', none) => if w'.frames = w.frames then none else some (.painted f)
  | _ => none

def deeds (w : Window) : List Call → List Deed
  | [] => []
  | c :: cs => (w.deed? c).toList ++ (w.obey c).deeds cs

/-- The frame is counted as one that was passed over, and nothing else happens. -/
def Skips (w : Window) (f : Frame) : Prop :=
  w.present f = ({ w with skipped := w.skipped + 1 }, none)

/-- The first frame that is presented while the window is open, before it is opened anew. -/
def firstShown (w : Window) : List Call → Option Frame
  | [] => none
  | .present f :: cs => if w.isOpen then some f else w.firstShown cs
  | c :: cs => if w.deed? c = some .opened then none else (w.obey c).firstShown cs

/-- All of a window but the frame that it remembers. -/
def forgetting (w : Window) : Window := { w with last := none }

section
variable {w : Window} {f : Frame}

theorem deed?_present_cases (w : Window) (f : Frame) :
    (w.deed? (.present f) = none ∧ (w.present f).1.last = w.last) ∨
    (w.deed? (.present f) = some (.painted f) ∧ (w.present f).1.last = some f ∧
      ∃ face image, w.face = some face ∧ w.paint f = .ok image) ∨
    ∃ e, w.deed? (.present f) = some (.refused f e) ∧ (w.present f).1.last = some f := by
  have hpresenting := w.presenting f
  simp only [deed?]
  generalize w.present f = out at hpresenting
  cases hpresenting with
  | unseen => exact .inl ⟨if_pos rfl, rfl⟩
  | skipped => exact .inl ⟨if_pos rfl, rfl⟩
  | refused => exact .inr (.inr ⟨_, rfl, rfl⟩)
  | painted hface _ hpaint =>
    exact .inr (.inl ⟨if_neg (Nat.succ_ne_self _), rfl, _, _, hface, hpaint⟩)

/-- What is remembered changes with each deed, and only then. -/
theorem last_obey (w : Window) (c : Call) :
    (w.obey c).last = ((w.deed? c).map Deed.frame?).getD w.last := by
  cases c with
  | openOn windows =>
    have hopening := w.opening windows
    simp only [obey, deed?]
    generalize w.openOn windows = out at hopening
    cases hopening <;> rfl
  | present f =>
    show (w.present f).1.last = _
    rcases w.deed?_present_cases f with ⟨hdeed, hlast⟩ | ⟨hdeed, hlast, -⟩ | ⟨e, hdeed, hlast⟩ <;>
      rw [hdeed, hlast] <;> rfl
  | close => show w.close.last = w.last; rw [close]; split <;> rfl
  | poll => rw [obey_poll]; split <;> rfl
  | receive e => obtain ⟨events, he⟩ := w.obey_receive_frame e; rw [he]; rfl
  | setLayout layout => rfl

theorem last_live (w : Window) (cs : List Call) :
    (w.live cs).last = ((w.deeds cs).getLast?.map Deed.frame?).getD w.last := by
  induction cs generalizing w with
  | nil => rfl
  | cons c cs ih =>
    show ((w.obey c).live cs).last = _
    rw [ih, last_obey, deeds, List.getLast?_append]
    cases ((w.obey c).deeds cs).getLast? with
    | some d => rfl
    | none => cases w.deed? c <;> rfl

theorem skips_iff (hopen : w.isOpen = true) : w.Skips f ↔ w.last = some f := by
  have hpresenting := w.presenting f
  unfold Skips
  generalize w.present f = out at hpresenting
  cases hpresenting with
  | unseen hface => rw [isOpen, hface] at hopen; cases hopen
  | skipped _ hlast => exact iff_of_true rfl hlast
  | refused _ hlast =>
    exact iff_of_false (fun h => Option.some_ne_none _ (congrArg Prod.snd h)) hlast
  | painted _ hlast =>
    refine iff_of_false (fun h => ?_) hlast
    have hframes := congrArg (fun out => out.1.frames) h
    exact Nat.succ_ne_self _ hframes

/-- On a toolkit that refuses what does not fit, a frame that is painted fills the surface. -/
theorem Sound.fills_of_paint (h : w.Sound) (hkit : w.kit.Refuses) {face image : Image}
    (hface : w.face = some face) (hpaint : w.paint f = .ok image) :
    f.Fills w.width.toNat w.height.toNat := by
  obtain ⟨surface, hcanvas, hsw, hsh⟩ := h.surface face hface
  obtain ⟨bytes, hbytes, hblit⟩ := (paint_eq_ok_iff hcanvas).1 hpaint
  obtain ⟨hcolumns, hrows⟩ := hkit.shareOut hbytes
  have hsame : bytes.width = surface.width ∧ bytes.height = surface.height := by
    by_contra hother
    obtain ⟨text, herror⟩ := hkit.blit surface (bytes.map colourOf) hother
    cases hblit.symm.trans herror
  have hwidth : w.width.toNat = f.length := by omega
  have hheight : w.height.toNat = bytes.height := by omega
  rw [hwidth, hheight]
  exact ⟨rfl, hrows⟩

/-- What is wrong with a frame that is refused is a value that does not fit. -/
theorem Sound.value_of_paint (h : w.Sound) (hkit : w.kit.Refuses) {face : Image} {e : Error}
    (hface : w.face = some face) (hpaint : w.paint f = .error e) :
    ∃ text, e = .toolkit (.value text) := by
  obtain ⟨surface, hcanvas, -⟩ := h.surface face hface
  simp only [Window.paint, hcanvas] at hpaint
  cases hbytes : w.kit.shareOut f.flatten f.length with
  | error e' =>
    rw [hbytes] at hpaint
    cases hpaint
    obtain ⟨text, rfl⟩ := hkit.shareOut_error hbytes
    exact ⟨text, rfl⟩
  | ok bytes =>
    simp only [hbytes] at hpaint
    by_cases hsame : bytes.width = surface.width ∧ bytes.height = surface.height
    · obtain ⟨painted, hok, -⟩ := h.paints.blit surface (bytes.map colourOf) hsame.1 hsame.2
      rw [hok] at hpaint
      cases hpaint
    · obtain ⟨text, herror⟩ := hkit.blit surface (bytes.map colourOf) hsame
      rw [herror] at hpaint
      cases hpaint
      exact ⟨text, rfl⟩

theorem Sound.fills_of_painted (h : w.Sound) (hkit : w.kit.Refuses) {cs : List Call}
    (hmem : .painted f ∈ w.deeds cs) : f.Fills w.width.toNat w.height.toNat := by
  induction cs generalizing w with
  | nil => cases hmem
  | cons c cs ih =>
    rw [deeds, List.mem_append, Option.mem_toList] at hmem
    rcases hmem with hdeed | hmem
    · cases c with
      | openOn windows =>
        simp only [deed?] at hdeed
        split at hdeed <;> cases hdeed
      | present g =>
        rcases w.deed?_present_cases g with ⟨hnone, -⟩ |
          ⟨hpainted, -, face, image, hface, hpaint⟩ | ⟨e, hrefused, -⟩
        · cases hnone.symm.trans hdeed
        · cases hpainted.symm.trans hdeed
          exact h.fills_of_paint hkit hface hpaint
        · cases hrefused.symm.trans hdeed
      | close | poll | receive | setLayout => cases hdeed
    · have hshape := w.shape_obey c
      simp only [shape, Prod.mk.injEq] at hshape
      obtain ⟨hsame, -, hwidth, hheight⟩ := hshape
      have hfills := ih (h.obey c) (hsame ▸ hkit) hmem
      rwa [hwidth, hheight] at hfills

/-- Of the frames that do not fill the window, those that are not passed over are refused. -/
theorem Sound.refused_of_not_fills (h : w.Sound) (hkit : w.kit.Refuses) (hopen : w.isOpen = true)
    (hlast : w.last ≠ some f) (hf : ¬ f.Fills w.width.toNat w.height.toNat) :
    ∃ text, (w.present f).2 = some (.toolkit (.value text)) := by
  have hpresenting := w.presenting f
  generalize w.present f = out at hpresenting
  cases hpresenting with
  | unseen hface => rw [isOpen, hface] at hopen; cases hopen
  | skipped _ hlast' => exact absurd hlast' hlast
  | refused hface _ hpaint =>
    obtain ⟨text, rfl⟩ := h.value_of_paint hkit hface hpaint
    exact ⟨text, rfl⟩
  | painted hface _ hpaint => exact absurd (h.fills_of_paint hkit hface hpaint) hf

/-! ### What a refusal leaves -/

theorem openOn_recalling (w : Window) (l : Option Frame) (windows : WindowSystem) :
    (w.openOn windows).2 = none ∧ { w with last := l }.openOn windows = w.openOn windows ∨
    (w.openOn windows).2 ≠ none ∧ (w.openOn windows).1.last = w.last ∧
      { w with last := l }.openOn windows =
        ({ (w.openOn windows).1 with last := l }, (w.openOn windows).2) := by
  have hsome (e : OpenError) : some e ≠ none := Option.some_ne_none e
  cases windows with
  | missing | unavailable => exact .inr ⟨hsome _, rfl, rfl⟩
  | ready =>
    simp only [openOn]
    cases w.kit.openWindow (w.width * w.scale) (w.height * w.scale) with
    | error e => cases e <;> exact .inr ⟨hsome _, rfl, rfl⟩
    | ok size =>
      cases w.kit.newSurface w.width w.height with
      | error e => exact .inr ⟨hsome _, rfl, rfl⟩
      | ok surface => exact .inl ⟨rfl, rfl⟩

/-- A call that presents nothing does the same whatever is remembered. -/
theorem obey_recalling (w : Window) (l : Option Frame) {c : Call} (hc : ∀ f, c ≠ .present f) :
    { w with last := l }.deed? c = w.deed? c ∧
    (w.deed? c = some .opened ∧ { w with last := l }.obey c = w.obey c ∨
      w.deed? c ≠ some .opened ∧ { w with last := l }.obey c = { w.obey c with last := l } ∧
        (w.obey c).last = w.last) := by
  have hnone : none ≠ some Deed.opened := (Option.some_ne_none _).symm
  cases c with
  | openOn windows =>
    simp only [deed?, obey]
    rcases w.openOn_recalling l windows with ⟨hok, hsame⟩ | ⟨herror, hlast, hsame⟩
    · rw [hsame, if_pos hok]
      exact ⟨rfl, .inl ⟨rfl, rfl⟩⟩
    · rw [hsame, if_neg herror]
      exact ⟨rfl, .inr ⟨hnone, rfl, hlast⟩⟩
  | present f => exact absurd rfl (hc f)
  | close =>
    refine ⟨rfl, .inr ⟨hnone, ?_⟩⟩
    show { w with last := l }.close = { w.close with last := l } ∧ w.close.last = w.last
    by_cases hopen : w.isOpen = true
    · rw [close, close, if_pos (show isOpen { w with last := l } = true from hopen), if_pos hopen]
      exact ⟨rfl, rfl⟩
    · rw [close, close, if_neg (show ¬ isOpen { w with last := l } = true from hopen), if_neg hopen]
      exact ⟨rfl, rfl⟩
  | poll =>
    refine ⟨rfl, .inr ⟨hnone, ?_⟩⟩
    rw [obey_poll, obey_poll]
    split <;> exact ⟨rfl, rfl⟩
  | receive e =>
    refine ⟨rfl, .inr ⟨hnone, ?_⟩⟩
    rw [obey_receive, obey_receive]
    split <;> exact ⟨rfl, rfl⟩
  | setLayout layout => exact ⟨rfl, .inr ⟨hnone, rfl, rfl⟩⟩

theorem present_recalling (w : Window) {l : Option Frame} (hopen : w.isOpen = true)
    (hl : l ≠ some f) (hlast : w.last ≠ some f) : { w with last := l }.present f = w.present f := by
  obtain ⟨face, hface⟩ := Option.isSome_iff_exists.1 hopen
  simp only [present, paint, hface, if_neg hl, if_neg hlast]

theorem present_of_closed (hclosed : ¬ w.isOpen = true) (f : Frame) : w.present f = (w, none) := by
  rw [isOpen, Option.not_isSome_iff_eq_none] at hclosed
  simp only [present, hclosed]

/-- Two windows that differ in what they remember do the same, unless one of them passes over the
first frame that they are shown. -/
theorem live_recalling (w : Window) (l : Option Frame) (cs : List Call)
    (h : ∀ g, w.firstShown cs = some g → l ≠ some g ∧ w.last ≠ some g) :
    ({ w with last := l }.live cs).forgetting = (w.live cs).forgetting ∧
      { w with last := l }.deeds cs = w.deeds cs := by
  induction cs generalizing w with
  | nil => exact ⟨rfl, rfl⟩
  | cons c cs ih =>
    show (({ w with last := l }.obey c).live cs).forgetting = ((w.obey c).live cs).forgetting ∧ _
    rw [deeds, deeds]
    by_cases hc : ∃ f, c = .present f
    · obtain ⟨f, rfl⟩ := hc
      by_cases hopen : w.isOpen = true
      · obtain ⟨hl, hlast⟩ := h f (by rw [firstShown, if_pos hopen])
        have hpresent := w.present_recalling hopen hl hlast
        simp only [obey, deed?, hpresent, and_self]
      · -- to a closed window nothing can be shown
        rw [firstShown, if_neg hopen] at h
        have hpresent : w.present f = (w, none) := present_of_closed hopen f
        have hpresent' : { w with last := l }.present f = ({ w with last := l }, none) :=
          present_of_closed (w := { w with last := l }) hopen f
        simp only [obey, deed?, hpresent, hpresent', if_true]
        exact ih w h
    · obtain ⟨hdeed, ⟨-, hobey⟩ | ⟨hnew, hobey, hlast⟩⟩ :=
        w.obey_recalling l (c := c) fun f hf => hc ⟨f, hf⟩
      · rw [hobey, hdeed]
        exact ⟨rfl, rfl⟩
      · have hfirst : w.firstShown (c :: cs) = (w.obey c).firstShown cs := by
          cases c with
          | present f => exact absurd ⟨f, rfl⟩ hc
          | openOn | close | poll | receive | setLayout => exact if_neg hnew
        obtain ⟨hlive, hdeeds⟩ := ih (w.obey c) fun g hg => hlast ▸ h g (hfirst.trans hg)
        rw [hobey, hdeed, hdeeds]
        exact ⟨hlive, rfl⟩

theorem present_of_refused (h : (w.present f).2.isSome = true) :
    (w.present f).1 = { w with last := some f } := by
  have hpresenting := w.presenting f
  generalize w.present f = out at hpresenting h
  cases hpresenting with
  | unseen | skipped | painted => cases h
  | refused => rfl

end

/-- An open window passes over a frame if the latest of its deeds was to paint or to refuse this
very frame. Unless it was refused, only the frame painted last is passed over, and a toolkit that
refuses what does not fit refuses each frame that does not fill the window. A frame that is refused
changes nothing that comes later, unless the next frame that is shown is the same or the one
remembered before. -/
theorem passed_over_iff (kit : Toolkit) (layout : KeyLayout) (scale width height : Int)
    (calls : List Call) :
    let w := (new kit layout scale width height).live calls
    let ds := (new kit layout scale width height).deeds calls
    w.isOpen = true → ∀ f : Frame,
      (w.Skips f ↔ ds.getLast? = some (.painted f) ∨ ∃ e, ds.getLast? = some (.refused f e)) ∧
      ((∀ e, ds.getLast? ≠ some (.refused f e)) →
        (w.Skips f → Deed.lastPainted ds = some f) ∧
        (kit.Paints → kit.Refuses → kit.Fits width height (max 1 scale) →
          ¬ f.Fills width.toNat height.toNat →
            ∃ text, (w.present f).2 = some (.toolkit (.value text)))) ∧
      ((w.present f).2.isSome = true →
        ∀ cs : List Call,
          (∀ g, w.firstShown cs = some g → g ≠ f ∧ ds.getLast?.bind Deed.frame? ≠ some g) →
          ((w.present f).1.live cs).forgetting = (w.live cs).forgetting ∧
            (w.present f).1.deeds cs = w.deeds cs) := by
  intro w ds hopen f
  have hlast : w.last = ds.getLast?.bind Deed.frame? := by
    rw [show w.last = _ from last_live _ calls]
    show (ds.getLast?.map Deed.frame?).getD none = _
    cases ds.getLast? <;> rfl
  have hskips : w.Skips f ↔
      ds.getLast? = some (.painted f) ∨ ∃ e, ds.getLast? = some (.refused f e) := by
    rw [skips_iff hopen, hlast]
    cases ds.getLast? with
    | none => simp
    | some d => cases d <;> simp [Deed.frame?]
  refine ⟨hskips, fun hrefused => ?_, fun herror cs hcs => ?_⟩
  · have hpainted (hskip : w.Skips f) : ds.getLast? = some (.painted f) :=
      (hskips.1 hskip).resolve_right fun ⟨e, he⟩ => hrefused e he
    refine ⟨fun hskip => Deed.lastPainted_of_getLast? (hpainted hskip),
      fun hpaints hrefuses hfits hf => ?_⟩
    have hsound : (new kit layout scale width height).Sound := sound_new hpaints hfits layout
    have hnot : w.last ≠ some f := fun hlast =>
      hf (hsound.fills_of_painted hrefuses
        (List.mem_of_getLast? (hpainted ((skips_iff hopen).2 hlast))))
    have hshape : w.shape = _ := shape_live (new kit layout scale width height) calls
    simp only [shape, new, Prod.mk.injEq] at hshape
    obtain ⟨hsame, -, hwidth, hheight⟩ := hshape
    exact (hsound.live calls).refused_of_not_fills (by rw [hsame]; exact hrefuses) hopen hnot
      (by rw [hwidth, hheight]; exact hf)
  · rw [present_of_refused herror]
    refine live_recalling w (some f) cs fun g hg => ?_
    obtain ⟨hne, hother⟩ := hcs g hg
    exact ⟨fun h => hne (Option.some.inj h).symm, hlast ▸ hother⟩

/-- After a frame was painted, one that is too large is refused and forgotten about once another one
is shown. -/
theorem passed_over_iff_of_refused :
    let small : Frame := [[1, 0], [0, 1]]
    let large : Frame := [[1, 1, 1], [1, 1, 1], [1, 1, 1]]
    let next : Frame := [[0, 0], [0, 1]]
    let calls : List Call := [.openOn .ready, .present small]
    let start := new Desktop.strict .standard 1 2 2
    let w := start.live calls
    w.isOpen = true ∧ w.Skips small ∧ Deed.lastPainted (start.deeds calls) = some small ∧
      ¬ w.Skips large ∧ (∃ text, (w.present large).2 = some (.toolkit (.value text))) ∧
      ((w.present large).1.live [.poll, .present next]).forgetting =
        (w.live [.poll, .present next]).forgetting ∧
      (w.present large).1.deeds [.poll, .present next] = [.painted next] := by
  intro small large next calls start w
  have hfits : Desktop.strict.Fits 2 2 1 := Desktop.strict_fits_iff.2
    (Desktop.fits (by decide) (by decide) (by decide) (by decide) (by decide))
  have hopen : w.isOpen = true := by decide +kernel
  have hdeed : (start.deeds calls).getLast? = some (.painted small) := by decide +kernel
  have hrefused (f : Frame) (e : Error) :
      (start.deeds calls).getLast? ≠ some (.refused f e) := by
    rw [hdeed]
    rintro ⟨⟩
  have hfirst : w.firstShown [.poll, .present next] = some next := by decide +kernel
  obtain ⟨hsmall, hpainted, -⟩ :=
    passed_over_iff Desktop.strict .standard 1 2 2 calls hopen small
  obtain ⟨hlarge, hrefuses, hlater⟩ :=
    passed_over_iff Desktop.strict .standard 1 2 2 calls hopen large
  have hskips : w.Skips small := hsmall.2 (.inl hdeed)
  obtain ⟨text, hsize⟩ := (hrefuses (hrefused large)).2 Desktop.strict_paints
    Desktop.strict_refuses hfits (by decide)
  obtain ⟨hforget, hdeeds⟩ := hlater (by rw [hsize]; rfl) [.poll, .present next] (by
    rintro g hg
    cases hfirst.symm.trans hg
    refine ⟨by decide, ?_⟩
    rw [hdeed]
    decide)
  refine ⟨hopen, hskips, (hpainted (hrefused small)).1 hskips, fun hskip => ?_, ⟨text, hsize⟩,
    hforget, hdeeds.trans (by decide +kernel)⟩
  rcases hlarge.1 hskip with h | ⟨e, h⟩
  · exact absurd (hdeed.symm.trans h) (by decide)
  · exact hrefused large e h

/-- A frame that is passed over need not be the one painted last: here it was refused, and nothing
was painted. -/
theorem not_always_painted :
    ¬ ∀ (kit : Toolkit) (layout : KeyLayout) (scale width height : Int) (calls : List Call)
      (f : Frame), kit.Paints → kit.Refuses → kit.Fits width height (max 1 scale) →
      0 < width → 0 < height →
      ((new kit layout scale width height).live calls).isOpen = true →
      ((new kit layout scale width height).live calls).Skips f →
      Deed.lastPainted ((new kit layout scale width height).deeds calls) = some f := by
  intro hall
  let large : Frame := [[1, 1, 1], [1, 1, 1], [1, 1, 1]]
  let calls : List Call := [.openOn .ready, .present large]
  let start := new Desktop.strict .standard 1 2 2
  have hfits : Desktop.strict.Fits 2 2 1 := Desktop.strict_fits_iff.2
    (Desktop.fits (by decide) (by decide) (by decide) (by decide) (by decide))
  have hopen : (start.live calls).isOpen = true := by decide +kernel
  have hlast : (start.live calls).last = some large := by decide +kernel
  have hnone : Deed.lastPainted (start.deeds calls) = none := by decide +kernel
  cases hnone.symm.trans (hall Desktop.strict .standard 1 2 2 calls large Desktop.strict_paints
    Desktop.strict_refuses hfits (by decide) (by decide) hopen
    ((skips_iff hopen).2 hlast))

end ChipEight.Window
