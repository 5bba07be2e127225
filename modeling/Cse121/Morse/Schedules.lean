import Cse121.Morse.Link52

/-! # The sampling phase in lab 5.2

For the sender's exact light the separators inside a message do not depend on when the
receiver looks. Between two repetitions the light is dark for ten units when the
message has no space at either end: exactly the idle timeout, which one schedule sees
pass and another does not.
-/

namespace Cse121.Lab52

open PulseTrain

/-! ## The darkness between repetitions -/

/-- A space at one of the ends of what is sent of a message. -/
def SpaceAtEnd (message : CString) : Prop :=
  (supportedText message).head? = some space ∨ (supportedText message).getLast? = some space

instance (message : CString) : Decidable (SpaceAtEnd message) :=
  inferInstanceAs (Decidable (_ ∨ _))

/-- Spaces in front make the first gap longer. -/
theorem head_gap {message : CString} (h : HasLetter message) (g : Int) :
    ∃ l ls, letters g message = l :: ls ∧ g ≤ l.gap ∧
      (l.gap = g ↔ (supportedText message).head? ≠ some space) := by
  induction message generalizing g with
  | nil =>
      rcases h with ⟨c, hc, -⟩
      simp at hc
  | cons c cs ih =>
      rw [supportedText_cons]
      by_cases hc : isLetter c = true
      · have hne := (isLetter_ne_space c hc).2
        exact ⟨⟨g, c⟩, letters 3 cs, by simp [letters, hc], le_refl g, by simp [supported, hc, hne]⟩
      · have hcs : HasLetter cs := by
          rcases h with ⟨x, hx, hxl⟩
          rcases List.mem_cons.1 hx with rfl | hx
          · exact absurd hxl hc
          · exact ⟨x, hx, hxl⟩
        by_cases hs : c = space
        · -- a space: four units more
          rcases ih hcs (g + 4) with ⟨l, ls, hls, hle, -⟩
          have hspace : toupper space = space := by decide
          refine ⟨l, ls, ?_, by omega, ?_⟩
          · simp only [letters, if_neg hc, if_pos hs, hls]
          · subst hs
            simp only [supported, beq_self_eq_true, Bool.or_true, if_true, List.head?_cons, hspace]
            constructor
            · intro heq
              omega
            · intro hne
              exact absurd rfl hne
        · rcases ih hcs g with ⟨l, ls, hls, hle, hiff⟩
          have hunsupported : supported c = false := by simp [supported, hc, hs]
          refine ⟨l, ls, ?_, hle, ?_⟩
          · simp only [letters, if_neg hc, if_neg hs, hls]
          · simpa [hunsupported] using hiff

/-- Spaces at the end make the gap after a message longer. -/
theorem last_gap (message : CString) :
    gapAfter 3 message = 3 ↔ (supportedText message).getLast? ≠ some space := by
  induction message using List.reverseRecOn with
  | nil => simp [gapAfter, supportedText]
  | append_singleton cs c ih =>
      have htext : supportedText (cs ++ [c]) =
          supportedText cs ++ if supported c then [toupper c] else [] := by
        simp only [supportedText, List.filter_append, List.map_append]
        cases hc : supported c <;> simp [hc]
      have hmin := gapAfter_min cs
      rw [gapAfter_append, htext]
      by_cases hc : isLetter c = true
      · have hne := (isLetter_ne_space c hc).2
        simp [gapAfter, hc, supported, hne]
      · by_cases hs : c = space
        · subst hs
          have hspace : toupper space = space := by decide
          simp only [gapAfter, if_neg hc, if_true, supported, beq_self_eq_true, Bool.or_true,
            hspace, List.getLast?_concat]
          constructor
          · intro heq
            omega
          · intro hne
            exact absurd rfl hne
        · have hunsupported : supported c = false := by simp [supported, hc, hs]
          simpa [gapAfter, hc, hs, hunsupported] using ih

/-- Ten units of darkness come between copies exactly when no space is at an end. -/
theorem copyGap_ten {message : CString} (h : HasLetter message) :
    copyGap message = 10 ↔ ¬ SpaceAtEnd message := by
  rcases head_gap h 0 with ⟨l, ls, hls, hle, hhead⟩
  have hlast := last_gap message
  have hmin := gapAfter_min message
  have hgap : copyGap message = gapAfter 3 message + 7 + l.gap := by
    simp [copyGap, hls]
  rw [hgap, SpaceAtEnd, not_or]
  constructor
  · intro hten
    exact ⟨hhead.1 (by omega), hlast.1 (by omega)⟩
  · rintro ⟨hne, hne'⟩
    have := hhead.2 hne
    have := hlast.2 hne'
    omega

/-! ## Schedules -/

/-- The samples at all instants from `u` on, `n` of them, of the light of a train. -/
def everyMicro (t : Int) (ps : List Pulse) (u : Int) : Nat → List Sample
  | 0 => []
  | n + 1 => ⟨if lit t ps u then 40 else 0, u⟩ :: everyMicro t ps (u + 1) n

/-- A schedule that looks at every instant up to `X`, pauses for `δ` and goes on up to
`stop`. -/
def pausing (t : Int) (ps : List Pulse) (X δ stop : Int) : List Sample :=
  everyMicro t ps 0 X.toNat ++ everyMicro t ps (X + δ) (stop - (X + δ) + 1).toNat

theorem mem_everyMicro {t u : Int} {ps : List Pulse} {n : Nat} {x : Sample} :
    x ∈ everyMicro t ps u n ↔
      (u ≤ x.timerUs ∧ x.timerUs < u + n) ∧
        x = ⟨if lit t ps x.timerUs then 40 else 0, x.timerUs⟩ := by
  induction n generalizing u with
  | zero =>
      simp only [everyMicro, List.not_mem_nil, false_iff]
      rintro ⟨h, -⟩
      omega
  | succ n ih =>
      simp only [everyMicro, List.mem_cons, ih]
      constructor
      · rintro (rfl | ⟨h, hx⟩)
        · exact ⟨⟨le_refl u, by simp only; omega⟩, rfl⟩
        · exact ⟨⟨by omega, by omega⟩, hx⟩
      · rintro ⟨h, hx⟩
        by_cases hu : x.timerUs = u
        · left
          rw [hu] at hx
          exact hx
        · right
          exact ⟨⟨by omega, by omega⟩, hx⟩

theorem everyMicro_sees (t u : Int) (ps : List Pulse) (n : Nat) :
    Sees t ps (everyMicro t ps u n) := by
  intro x hx
  have hx' := (mem_everyMicro.1 hx).2
  have hadc : x.adcValue = if lit t ps x.timerUs then 40 else 0 := congrArg Sample.adcValue hx'
  unfold Sample.lit
  rw [hadc]
  cases lit t ps x.timerUs <;> decide

theorem everyMicro_sampled (t u : Int) (ps : List Pulse) (n : Nat) :
    Sampled Sample.timerUs 1 (everyMicro t ps u n) := by
  induction n generalizing u with
  | zero => exact List.isChain_nil
  | succ n ih =>
      cases n with
      | zero => exact List.isChain_singleton _
      | succ n =>
          refine List.isChain_cons_cons.2 ⟨?_, ih (u + 1)⟩
          simp only
          omega

theorem everyMicro_last {t u : Int} {ps : List Pulse} {n : Nat} :
    ∀ x ∈ (everyMicro t ps u n).getLast?, x.timerUs = u + n - 1 := by
  induction n generalizing u with
  | zero => simp [everyMicro]
  | succ n ih =>
      intro x hx
      cases n with
      | zero =>
          obtain rfl : _ = x := by simpa [everyMicro] using hx
          simp
      | succ n =>
          have hlast := ih x (by simpa [everyMicro, List.getLast?_cons_cons] using hx)
          push_cast at hlast ⊢
          omega

/-- A pause of a millisecond is no longer than the sampling distance. -/
theorem pausing_sampled {t X δ stop : Int} (ps : List Pulse) (hX : 0 ≤ X)
    (hδ : 0 ≤ δ ∧ δ ≤ 1000) : Sampled Sample.timerUs 10000 (pausing t ps X δ stop) := by
  have hmono : ∀ u n, Sampled Sample.timerUs 10000 (everyMicro t ps u n) := by
    intro u n
    refine (everyMicro_sampled t u ps n).imp ?_
    intro a b hab
    omega
  refine List.isChain_append.2 ⟨hmono _ _, hmono _ _, ?_⟩
  intro x hx y hy
  have hxtime := everyMicro_last x hx
  have hytime := (mem_everyMicro.1 (List.mem_of_mem_head? hy)).1
  have hyfirst : y.timerUs = X + δ := by
    cases hm : (stop - (X + δ) + 1).toNat with
    | zero => simp [hm, everyMicro] at hy
    | succ m =>
        rw [hm] at hy
        obtain rfl : _ = y := by simpa [everyMicro] using hy
        rfl
  omega

theorem pausing_run {t X δ : Int} (ps : List Pulse) (hX : 0 ≤ X) (hδ : 0 ≤ δ ∧ δ ≤ 1000)
    (stop : Int) : Run (pausing t ps X δ stop) := by
  refine run_sampled (pausing_sampled ps hX hδ) ?_
  intro x hx
  rcases List.mem_append.1 (List.mem_of_mem_head? hx) with hx | hx
  · exact (mem_everyMicro.1 hx).1.1
  · have := (mem_everyMicro.1 hx).1.1
    omega

/-- Up to the first edge of the second of two trains, only the first one is seen. -/
theorem sees_first {t : Int} {ps : List Pulse} {q : Pulse} {qs : List Pulse} {xs : List Sample}
    (hqs : Proper qs) (hq : 0 ≤ q.width) (hsees : Sees t (ps ++ q :: qs) xs)
    (htime : ∀ x ∈ xs, x.timerUs < endTime t ps + q.gap) : Sees t ps xs := by
  intro x hx
  rw [hsees x hx, lit_append, lit_gap hqs hq (htime x hx), Bool.or_false]

/-- After ten units of darkness the light is seen at once, or a millisecond late. -/
theorem gapSep_pause : gapSep 1000 = some [space] ∧ gapSep 1001 = some [newline] := by
  decide

/-- The samples around the pause: those before it, and the first one after it, which sees
the light. -/
theorem pausing_split {t δ stop : Int} (ps : List Pulse) {q : Pulse} (qs : List Pulse) {n : Nat}
    (hn : endTime t ps + q.gap = n) (hδ : 0 ≤ δ ∧ δ < q.width)
    (hstop : endTime t ps + q.gap + δ ≤ stop) :
    ∃ post, pausing t (ps ++ q :: qs) (endTime t ps + q.gap) δ stop =
      (everyMicro t (ps ++ q :: qs) 0 n ++ [⟨40, endTime t ps + q.gap + δ⟩]) ++ post := by
  obtain ⟨m, hm⟩ : ∃ m : Nat, (stop - (endTime t ps + q.gap + δ) + 1).toNat = m + 1 :=
    ⟨(stop - (endTime t ps + q.gap + δ) + 1).toNat - 1, by omega⟩
  have hlater : lit (endTime t ps) (q :: qs) (endTime t ps + q.gap + δ) = true :=
    lit_pulse (by omega) (by omega)
  have hlit : lit t (ps ++ q :: qs) (endTime t ps + q.gap + δ) = true := by
    rw [lit_append, hlater, Bool.or_true]
  refine ⟨everyMicro t (ps ++ q :: qs) (endTime t ps + q.gap + δ + 1) m, ?_⟩
  have htoNat : (endTime t ps + q.gap).toNat = n := by omega
  rw [pausing, hm, htoNat, everyMicro, hlit]
  simp

/-- A train and ten units of darkness, with a pause just when the light comes back: the
pause decides which break ends the darkness. -/
theorem marks_pause {t δ : Int} {p : Pulse} {ps : List Pulse} (hvis : Visible 1 (p :: ps))
    (ht : 0 < t + p.gap) {q : Pulse} {qs : List Pulse} (hqs : Proper qs) (hgap : q.gap = 1000000)
    (hwidth : 0 ≤ q.width) (hδ : δ = 0 ∨ δ = 1000) {n : Nat}
    (hn : endTime t (p :: ps) + q.gap = n) :
    ∃ ms, AlikeTrain (Measured 1) (p :: ps) ms ∧
      Segment.Same (marks.out ⟨false, 0⟩ (everyMicro t (p :: ps ++ q :: qs) 0 n ++
          [⟨40, endTime t (p :: ps) + q.gap + δ⟩]))
        (trainTokens gapSep widthSymbol ms ++ [.brk [if δ = 0 then space else newline]]) := by
  -- the light of the first train is all that is seen before the pause
  have hbefore : ∀ x ∈ everyMicro t (p :: ps ++ q :: qs) 0 n,
      0 ≤ x.timerUs ∧ x.timerUs < endTime t (p :: ps) + q.gap := by
    intro x hx
    have := (mem_everyMicro.1 hx).1
    omega
  have hsees : Sees t (p :: ps) (everyMicro t (p :: ps ++ q :: qs) 0 n) :=
    sees_first hqs hwidth (everyMicro_sees t 0 (p :: ps ++ q :: qs) n)
      fun x hx => (hbefore x hx).2
  have hp := hvis.1 p List.mem_cons_self
  have hend := hvis.le_endTime (t := t)
  obtain ⟨z, hz, hztime⟩ : ∃ z ∈ everyMicro t (p :: ps ++ q :: qs) 0 n,
      z.timerUs = endTime t (p :: ps) + q.gap - 1 := by
    refine ⟨⟨if lit t (p :: ps ++ q :: qs) (n - 1) then 40 else 0, n - 1⟩, ?_, by rw [hn]⟩
    rw [mem_everyMicro]
    refine ⟨⟨?_, ?_⟩, rfl⟩ <;> simp only <;> omega
  obtain ⟨m, rfl⟩ : ∃ m, n = m + 1 := ⟨n - 1, by omega⟩
  have hsampled : Sampled Sample.timerUs 1 (⟨0, 0⟩ ::
      everyMicro t (p :: ps ++ q :: qs) 0 (m + 1)) :=
    List.isChain_cons_cons.2 ⟨⟨le_refl _, by simp only; omega⟩,
      everyMicro_sampled t 0 (p :: ps ++ q :: qs) (m + 1)⟩
  rcases marks_sampled_first (τ := 0) hvis hsampled ht (by decide) hsees hz (by omega) with
    ⟨v, ms, hms, before, rest, hsplit, -, hv, hdark, hstate, htoks⟩
  refine ⟨ms, hms, ?_⟩
  -- the darkness is measured from `v` to the sample after the pause
  have htime : ∀ d, 0 ≤ d → (⟨40, endTime t (p :: ps) + q.gap + d⟩ : Sample).currentTime =
      (endTime t (p :: ps) + q.gap + d) / 1000 := fun d hd => currentTime_of_nonneg (by
    simp only
    omega)
  have hrise := marks_rise v.currentTime hdark
    (a := ⟨40, endTime t (p :: ps) + q.gap + δ⟩) rfl (by
    intro x hx
    have hx' := hbefore x (hsplit ▸ List.mem_append_right before hx)
    rw [currentTime_of_nonneg (by omega), htime δ (by omega)]
    omega)
  have hmeasure : (⟨40, endTime t (p :: ps) + q.gap + δ⟩ : Sample).currentTime - v.currentTime =
      1000 + δ / 1000 := by
    rw [currentTime_of_nonneg hv.2.2, htime δ (by omega)]
    omega
  have hsep : gapSep (1000 + δ / 1000) = some [if δ = 0 then space else newline] := by
    rcases hδ with rfl | rfl
    · exact gapSep_pause.1
    · exact gapSep_pause.2
  rw [hmeasure, hsep] at hrise
  rw [hsplit, List.append_assoc, Transducer.out_append, hstate]
  exact htoks.append hrise.2

/-- A copy of a message, ten units of darkness and more light: the pause decides what the
copy is closed by. -/
theorem pausing_text (δ stop : Int) {l : Letter} {ls : List Letter} (hl : isLetter l.char = true)
    (hls : ∀ l' ∈ ls, isLetter l'.char = true ∧ (l'.gap = 3 ∨ l'.gap = 7 ∨ 11 ≤ l'.gap))
    {q : Pulse} {qs : List Pulse} (hqs : Proper qs) (hgap : q.gap = 1000000)
    (hwidth : 1000 < q.width) {t : Int} (ht : ∀ p ∈ (train Lab51.dotDuration (l :: ls)).head?,
      0 < t + p.gap) (hδ : δ = 0 ∨ δ = 1000)
    (hstop : endTime t (train Lab51.dotDuration (l :: ls)) + q.gap + δ ≤ stop)
    {s : Receiver CharBuffer} (hs : Waiting s) :
    ∃ rest, text (morseReceiverTask.out s
        (pausing t (train Lab51.dotDuration (l :: ls) ++ q :: qs)
          (endTime t (train Lab51.dotDuration (l :: ls)) + q.gap) δ stop)) =
      toupper l.char :: spelled turnSep ls ++ (if δ = 0 then space else newline) :: rest := by
  have hgaps : ∀ l' ∈ ls, 1 ≤ l'.gap := by
    intro l' hl'
    have := (hls l' hl').2
    omega
  have hweak : ∀ l' ∈ ls, isLetter l'.char = true ∧ (l'.gap = 3 ∨ l'.gap = 7 ∨ 10 ≤ l'.gap) := by
    intro l' hl'
    have := hls l' hl'
    exact ⟨this.1, by omega⟩
  have hfixed : ∀ l' ∈ ls, isLetter l'.char = true ∧ l'.gap ≠ 10 := by
    intro l' hl'
    have := hls l' hl'
    exact ⟨this.1, by omega⟩
  -- the light is the nominal one, and the sampling misses a microsecond at most
  have hself := alikeTrain_refl (le_refl 0) (train Lab51.dotDuration (l :: ls))
  have hvis : Visible 1 (train Lab51.dotDuration (l :: ls)) :=
    visible_train (by decide) (by decide) hl hgaps hself
  obtain ⟨p, ps, hps⟩ := List.exists_cons_of_ne_nil (train_ne_nil (u := Lab51.dotDuration) hl ls)
  rw [hps] at ht hvis hstop hself ⊢
  have hfirst := ht p rfl
  have hp := hvis.1 p List.mem_cons_self
  have hend := hvis.le_endTime (t := t)
  obtain ⟨n, hn⟩ := Int.eq_ofNat_of_zero_le (a := endTime t (p :: ps) + q.gap) (by omega)
  -- up to the sample after the pause, the tokens are the copy and the break
  rcases marks_pause hvis hfirst hqs hgap (by omega) hδ hn with ⟨ms, hms, hsame⟩
  rcases pausing_split (p :: ps) qs hn (δ := δ) (by omega) hstop with ⟨post, hsplit⟩
  have hrun := pausing_run (t := t) (p :: ps ++ q :: qs) (X := endTime t (p :: ps) + q.gap)
    (by omega) (δ := δ) (by omega) stop
  rw [hsplit] at hrun ⊢
  have hexact : AlikeTrain (Within 0) (train Lab51.dotDuration (l :: ls)) (p :: ps) := by
    rw [hps]
    exact hself
  rcases closed_letters hl hweak (coarse_of_measured (P := 1) (by decide) hexact hms) hs hrun.left
    hsame with ⟨ks, hks, htext⟩
  rw [Transducer.out_append, text_append, htext, turnSep_spelled hfixed hks]
  exact ⟨_, List.append_assoc _ _ _⟩

/-! ## Agreement of schedules -/

/-- The nominal light of more than one copy of a message that has no space at an end. -/
theorem copies_train {message : CString} (hletter : HasLetter message)
    (hends : ¬ SpaceAtEnd message) (n : Nat) :
    ∃ (l : Letter) (ls : List Letter) (q : Pulse) (qs : List Pulse),
      pulses 0 (Lab51.main (n + 2) message) = train Lab51.dotDuration (l :: ls) ++ q :: qs ∧
      isLetter l.char = true ∧ 0 ≤ l.gap ∧
      (∀ l' ∈ ls, isLetter l'.char = true ∧ (l'.gap = 3 ∨ l'.gap = 7 ∨ 11 ≤ l'.gap)) ∧
      q.gap = 1000000 ∧ 1000 < q.width ∧ Proper qs := by
  rcases transmission_shape hletter with ⟨k, c, inner, hk, hc, hls, hinner, htrans⟩
  have hten := (copyGap_ten hletter).2 hends
  have hgap : gapAfter 3 message + 7 + k = 10 := by
    rw [← hten, copyGap, hls 0]
    simp
  have hmore : ∀ l ∈ inner ++ (List.replicate n (⟨10, c⟩ :: inner)).flatten, 1 ≤ l.gap :=
    copies_forall (fun l => 1 ≤ l.gap) ⟨10, c⟩ (by simp)
      (fun l hl => by have := (hinner l hl).2; omega) n
  have hpulses : pulses 0 (Lab51.main (n + 2) message) =
      train Lab51.dotDuration (⟨k, c⟩ :: inner) ++ train Lab51.dotDuration
        (⟨10, c⟩ :: (inner ++ (List.replicate n (⟨10, c⟩ :: inner)).flatten)) := by
    rw [Lab51.main_pulses, htrans, hgap, ← train_append, List.replicate_succ, List.flatten_cons]
    rfl
  -- the second copy begins with ten units of darkness
  have hwidth := train_width (u := Lab51.dotDuration) (by decide)
    (⟨10, c⟩ :: (inner ++ (List.replicate n (⟨10, c⟩ :: inner)).flatten))
  have hgaps := train_gap (u := Lab51.dotDuration) (l := ⟨10, c⟩) (by decide) hc hmore
  generalize inner ++ (List.replicate n (⟨10, c⟩ :: inner)).flatten = more at hpulses hwidth hgaps
  cases hcode : codeOf c with
  | nil => exact absurd hcode (codeOf_spec c hc).2.1
  | cons s code =>
      have hsecond : train Lab51.dotDuration (⟨10, c⟩ :: more) = ⟨1000000, units s * 100000⟩ ::
          (codePulses Lab51.dotDuration 1 code ++ train Lab51.dotDuration more) := by
        rw [train_cons, hcode]
        rfl
      rw [hsecond] at hpulses hwidth hgaps
      refine ⟨⟨k, c⟩, inner, _, _, hpulses, hc, hk, hinner, rfl, ?_, ?_⟩
      · have hq := (hwidth _ List.mem_cons_self).1
        simp only [Lab51.dotDuration] at hq ⊢
        omega
      · intro r hr
        have hrgap := hgaps r hr
        have hrwidth := (hwidth r (List.mem_cons_of_mem _ hr)).1
        simp only [Lab51.dotDuration] at hrgap hrwidth
        omega

/-- Samples of the nominal light of `n` copies of a message: the first one before it, at
most 10 ms apart, and going on for more than two seconds after its end. -/
def WatchesNominal (t : Int) (n : Nat) (message : CString) (xs : List Sample) : Prop :=
  Watches 10000 t 2000001 (pulses 0 (Lab51.main n message)) xs

/-- In the dark nothing is printed. -/
theorem dark_text {xs : List Sample} (hxs : ∀ x ∈ xs, x.lit = false) (hrun : Run xs)
    {s : Receiver CharBuffer} (hs : Waiting s) : text (morseReceiverTask.out s xs) = [] := by
  rcases hs with ⟨hreach, hdark, hidle⟩
  rw [boot_text (hreach.holds_nil hidle) hdark hrun, (marks_dark 0 hxs).2,
    (Segment.out_brks_nil (timeouts 0 xs)).1]
  rfl

/-- Nothing to send, nothing printed. -/
theorem nominal_empty {message : CString} {n : Nat} {t : Int} (h : ¬ HasLetter message ∨ n = 0)
    {xs : List Sample} (hxs : WatchesNominal t n message xs) {s : Receiver CharBuffer}
    (hs : Waiting s) : text (morseReceiverTask.out s xs) = [] := by
  have hpulses : pulses 0 (Lab51.main n message) = [] := by
    rw [Lab51.main_pulses]
    rcases h with h | rfl
    · rw [transmission_empty h]
      rfl
    · rfl
  refine dark_text ?_ hxs.run hs
  intro x hx
  rw [hxs.sees x hx, hpulses]
  rfl

/-- Every schedule prints the copies, and only the separators between them are open. -/
theorem nominal_copies {message : CString} (hletter : HasLetter message) {n : Nat} {t : Int}
    {xs : List Sample} (hxs : WatchesNominal t (n + 1) message xs) {s : Receiver CharBuffer}
    (hs : Waiting s) :
    ∃ seps : List CString, seps.length = n ∧ (∀ sep ∈ seps, TurnSep (copyGap message) sep) ∧
      text (morseReceiverTask.out s xs) =
        (seps ++ [[newline]]).flatMap fun sep => lineText message ++ sep :=
  watched_copies (e := 0) (P := 10000) hletter (by decide) (by decide)
    (alikeTrain_refl (le_refl 0) _) (hxs.mono (by decide)) hs

/-- A schedule with a pause watches the light. -/
theorem pausing_watches {t X δ stop : Int} {p : Pulse} {ps : List Pulse} (ht : 0 < t)
    (hp : 0 ≤ p.gap) (hX : 0 < X) (hδ : 0 ≤ δ ∧ δ ≤ 1000)
    (hstop : endTime t (p :: ps) + 2000001 ≤ stop) (hlater : X + δ ≤ stop) :
    Watches 10000 t 2000001 (p :: ps) (pausing t (p :: ps) X δ stop) := by
  refine ⟨pausing_sampled (p :: ps) hX.le hδ, ?_, ?_, ?_⟩
  · obtain ⟨n, hn⟩ : ∃ n : Nat, X.toNat = n + 1 := ⟨X.toNat - 1, by omega⟩
    intro x hx
    rw [pausing, hn] at hx
    obtain rfl : _ = x := by simpa [everyMicro] using hx
    refine ⟨le_refl 0, ?_⟩
    rintro _ ⟨⟩
    simp only
    omega
  · intro x hx
    rcases List.mem_append.1 hx with hx | hx
    · exact everyMicro_sees _ _ _ _ x hx
    · exact everyMicro_sees _ _ _ _ x hx
  · refine ⟨⟨if lit t (p :: ps) stop then 40 else 0, stop⟩, ?_, hstop⟩
    apply List.mem_append_right
    rw [mem_everyMicro]
    refine ⟨⟨?_, ?_⟩, rfl⟩ <;> simp only <;> omega

theorem train_nonneg {l : Letter} {ls : List Letter} (hl : isLetter l.char = true)
    (hgap : 0 ≤ l.gap) (hls : ∀ l' ∈ ls, 1 ≤ l'.gap) :
    ∀ p ∈ train Lab51.dotDuration (l :: ls), 0 ≤ p.gap ∧ 0 ≤ p.width := by
  have hwidth := train_width (u := Lab51.dotDuration) (by decide) (l :: ls)
  have htail := train_gap (u := Lab51.dotDuration) (by decide) hl hls
  rw [train_cons] at hwidth htail ⊢
  cases hcode : codeOf l.char with
  | nil => exact absurd hcode (codeOf_spec l.char hl).2.1
  | cons s code =>
      rw [hcode] at hwidth htail
      intro p hp
      have hpw := (hwidth p hp).1
      simp only [Lab51.dotDuration] at hpw
      rcases List.mem_cons.1 hp with rfl | hp
      · simp only [Lab51.dotDuration] at hpw ⊢
        omega
      · have hpg := htail p hp
        simp only [Lab51.dotDuration] at hpg
        omega

/-- When no space is at an end of the message, the text depends on the schedule: one that
looks when the light comes back for the second copy prints a space, one that looks a
millisecond later a newline. -/
theorem schedules_differ {message : CString} (hletter : HasLetter message)
    (hends : ¬ SpaceAtEnd message) (n : Nat) {t : Int} (ht : 0 < t) {s : Receiver CharBuffer}
    (hs : Waiting s) :
    ∃ xs ys, WatchesNominal t (n + 2) message xs ∧ WatchesNominal t (n + 2) message ys ∧
      text (morseReceiverTask.out s xs) ≠ text (morseReceiverTask.out s ys) := by
  rcases copies_train hletter hends n with ⟨l, ls, q, qs, hpulses, hl, hgap, hls, hq, hqw, hqs⟩
  have hgaps : ∀ l' ∈ ls, 1 ≤ l'.gap := by
    intro l' hl'
    have := (hls l' hl').2
    omega
  have htrain := train_nonneg hl hgap hgaps
  have hlit : ∀ p ∈ (train Lab51.dotDuration (l :: ls)).head?, 0 < t + p.gap := by
    intro p hp
    have := (htrain p (List.mem_of_mem_head? hp)).1
    omega
  have hpause := fun δ stop => pausing_text δ stop hl hls hqs hq hqw hlit
  obtain ⟨p, ps, hps⟩ := List.exists_cons_of_ne_nil (train_ne_nil (u := Lab51.dotDuration) hl ls)
  have hE : t ≤ endTime t (train Lab51.dotDuration (l :: ls)) := le_endTime htrain
  rw [hps] at hpulses htrain hE hpause
  -- both schedules go on for two seconds after the end
  have hend : endTime t (p :: ps) + q.gap + q.width ≤ endTime t (p :: ps ++ q :: qs) := by
    rw [endTime_append]
    exact le_endTime fun r hr => ⟨(hqs r hr).1.le, (hqs r hr).2.le⟩
  have hwatch : ∀ δ : Int, 0 ≤ δ ∧ δ ≤ 1000 → WatchesNominal t (n + 2) message
      (pausing t (p :: ps ++ q :: qs) (endTime t (p :: ps) + q.gap) δ
        (endTime t (p :: ps ++ q :: qs) + 2000001)) := by
    intro δ hδ
    unfold WatchesNominal
    rw [hpulses]
    exact pausing_watches ht (htrain p List.mem_cons_self).1 (by omega) hδ (le_refl _) (by omega)
  refine ⟨_, _, hwatch 0 (by decide), hwatch 1000 (by decide), ?_⟩
  rcases hpause 0 (endTime t (p :: ps ++ q :: qs) + 2000001) (Or.inl rfl) (by omega) hs with
    ⟨rest, htext⟩
  rcases hpause 1000 (endTime t (p :: ps ++ q :: qs) + 2000001) (Or.inr rfl) (by omega) hs with
    ⟨rest', htext'⟩
  rw [htext, htext']
  intro heq
  have hsep := List.head_eq_of_cons_eq (List.append_cancel_left heq)
  exact absurd hsep (by decide)

/-- The text is fixed for one copy, and when the darkness between copies is longer than
the timeout. -/
theorem nominal_fixed {message : CString} (hletter : HasLetter message) {n : Nat}
    (h : n = 0 ∨ SpaceAtEnd message) {t : Int} {xs : List Sample}
    (hxs : WatchesNominal t (n + 1) message xs) {s : Receiver CharBuffer} (hs : Waiting s) :
    text (morseReceiverTask.out s xs) =
      (List.replicate (n + 1) [newline]).flatMap fun sep => lineText message ++ sep := by
  rcases nominal_copies hletter hxs hs with ⟨seps, hlen, hseps, htext⟩
  have hall : seps = List.replicate n [newline] := by
    rw [List.eq_replicate_iff]
    refine ⟨hlen, ?_⟩
    intro sep hsep
    rcases h with rfl | hspace
    · rw [List.length_eq_zero_iff.1 hlen] at hsep
      simp at hsep
    · have hmin := copyGap_min hletter
      have hne : copyGap message ≠ 10 := fun hten => (copyGap_ten hletter).1 hten hspace
      rcases hseps sep hsep with hsep | ⟨hten, -⟩
      · rw [hsep, turnSep, if_neg (by omega), if_neg (by omega)]
      · exact absurd hten hne
  rw [htext, hall, List.replicate_succ']

/-- Whatever the schedule, a copy of the line for each repetition, and a newline at the
end. -/
theorem nominal_lines {message : CString} {n : Nat} {t : Int} {xs : List Sample}
    (hxs : WatchesNominal t n message xs) {s : Receiver CharBuffer} (hs : Waiting s) :
    ∃ seps : List CString, seps.length = (if HasLetter message then n else 0) ∧
      (∀ sep ∈ seps, sep = [space] ∨ sep = [newline]) ∧
      (∀ sep ∈ seps.getLast?, sep = [newline]) ∧
      text (morseReceiverTask.out s xs) = seps.flatMap fun sep => lineText message ++ sep := by
  by_cases hsend : HasLetter message
  · rw [if_pos hsend]
    cases n with
    | zero => exact ⟨[], rfl, by simp, by simp, nominal_empty (Or.inr rfl) hxs hs⟩
    | succ n =>
        rcases nominal_copies hsend hxs hs with ⟨seps, hlen, hseps, htext⟩
        refine ⟨seps ++ [[newline]], by simp [hlen], ?_, by simp, htext⟩
        intro sep hsep
        rcases List.mem_append.1 hsep with hsep | hsep
        · exact turnSep_cases (copyGap_min hsend) (hseps sep hsep)
        · exact Or.inr (List.mem_singleton.1 hsep)
  · rw [if_neg hsend]
    exact ⟨[], rfl, by simp, by simp, nominal_empty (Or.inl hsend) hxs hs⟩

/-- Without ten units of darkness between copies the text does not depend on the
schedule. -/
theorem nominal_agree {message : CString} {n : Nat} {t : Int}
    (h : n ≤ 1 ∨ ¬ HasLetter message ∨ SpaceAtEnd message) {xs ys : List Sample}
    (hxs : WatchesNominal t n message xs) (hys : WatchesNominal t n message ys)
    {s s' : Receiver CharBuffer} (hs : Waiting s) (hs' : Waiting s') :
    text (morseReceiverTask.out s xs) = text (morseReceiverTask.out s' ys) := by
  by_cases hsend : HasLetter message
  · cases n with
    | zero => rw [nominal_empty (Or.inr rfl) hxs hs, nominal_empty (Or.inr rfl) hys hs']
    | succ n =>
        have hfixed : n = 0 ∨ SpaceAtEnd message := by
          rcases h with hn | h | h
          · left
            omega
          · exact absurd hsend h
          · exact Or.inr h
        rw [nominal_fixed hsend hfixed hxs hs, nominal_fixed hsend hfixed hys hs']
  · rw [nominal_empty (Or.inl hsend) hxs hs, nominal_empty (Or.inl hsend) hys hs']

/-- The schedules of lab 5.2 print copies of one line of text, closed by spaces and
newlines. They all print the same exactly when there are no two copies, when there is
nothing to send, or when a space at one end of the message makes the darkness between
the copies longer than the timeout. -/
theorem schedules_agree_iff {message : CString} {n : Nat} {t : Int} (ht : 0 < t) :
    (∀ xs s, WatchesNominal t n message xs → Waiting s →
      ∃ seps : List CString, seps.length = (if HasLetter message then n else 0) ∧
        (∀ sep ∈ seps, sep = [space] ∨ sep = [newline]) ∧
        (∀ sep ∈ seps.getLast?, sep = [newline]) ∧
        text (morseReceiverTask.out s xs) = seps.flatMap fun sep => lineText message ++ sep) ∧
    ((∀ xs ys s s', WatchesNominal t n message xs → WatchesNominal t n message ys →
        Waiting s → Waiting s' →
        text (morseReceiverTask.out s xs) = text (morseReceiverTask.out s' ys)) ↔
      n ≤ 1 ∨ ¬ HasLetter message ∨ SpaceAtEnd message) := by
  constructor
  · intro xs s hxs hs
    exact nominal_lines hxs hs
  · constructor
    · intro hagree
      by_contra hcases
      push Not at hcases
      obtain ⟨m, rfl⟩ : ∃ m, n = m + 2 := ⟨n - 2, by omega⟩
      have hs := waiting_start (Vector.replicate 10 0)
      rcases schedules_differ hcases.2.1 hcases.2.2 m ht hs with ⟨xs, ys, hxs, hys, hne⟩
      exact hne (hagree xs ys _ _ hxs hys hs hs)
    · intro h xs ys s s' hxs hys hs hs'
      exact nominal_agree h hxs hys hs hs'

theorem schedules_agree_e :
    ¬ ∀ xs ys s s', WatchesNominal 1 2 (bytes "e") xs → WatchesNominal 1 2 (bytes "e") ys →
      Waiting s → Waiting s' →
      text (morseReceiverTask.out s xs) = text (morseReceiverTask.out s' ys) := by
  intro hagree
  exact absurd ((schedules_agree_iff (by decide)).2.1 hagree) (by decide)

/-- Two schedules that tell the repetitions of an `E` apart by different separators. -/
theorem schedules_e_differ :
    ∃ xs ys, WatchesNominal 1 2 (bytes "e") xs ∧ WatchesNominal 1 2 (bytes "e") ys ∧
      text (morseReceiverTask.out (start (Vector.replicate 10 0)) xs) ≠
        text (morseReceiverTask.out (start (Vector.replicate 10 0)) ys) :=
  schedules_differ (by decide) (by decide) 0 (by decide) (waiting_start _)

end Cse121.Lab52
