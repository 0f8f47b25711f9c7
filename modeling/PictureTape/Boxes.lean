/-
**The picture of four boxes.**

A fixed tree of four panels serves as an example: a yellow column with a blue frame and a red button
in it, and a black button in the frame.

Main definitions:

* `Boxes.root` — the four panels;
* `Boxes.draw` — draws them;
* `Boxes.picture` — the picture of them, bounded by the outermost;
* `Boxes.write` — the picture encoded and written to a file.
-/

import PictureTape.Panel.Drawing
import PictureTape.Picture.Encoding
import PictureTape.Recorder

set_option autoImplicit false
set_option relaxedAutoImplicit false

namespace PictureTape

namespace Boxes

/-! ### The panels -/

/-- The black button in the frame. -/
def innerButton : Panel := .node ⟨3, "AppCompatButton", 200, 500, ⟨200, 200⟩, .black⟩ []

/-- The blue frame. -/
def frame : Panel := .node ⟨2, "FrameLayout", 500, 1000, ⟨100, 100⟩, .pureBlue⟩ [innerButton]

/-- The red button below the frame. -/
def outerButton : Panel := .node ⟨4, "Button", 400, 500, ⟨300, 1200⟩, .pureRed⟩ []

/-- The yellow column around them. -/
def root : Panel := .node ⟨1, "LinearLayout", 1000, 2000, ⟨0, 0⟩, .yellow⟩ [frame, outerButton]

/-! ### The picture -/

/-- What the panels are filled with, before it gets their colors. -/
def paint : Paint := .fill .black

variable {σ : Type}

/-- Draws the panels. -/
def draw (canvas : Canvas σ) : Action σ Unit := root.draw canvas paint

/-- The picture of the panels. -/
def picture : Action σ Picture := Recorder.capture root.face.localRect (draw .recording)

/-- Encodes the picture and has the bytes written to a file; gives their number. -/
def write (writeFile : String → Bytes → Action σ Unit) (path : String) : Action σ Nat := do
  let picture ← picture
  let bytes ← picture.store
  writeFile path bytes
  note (.written bytes.length path)
  return bytes.length

end Boxes

end PictureTape
