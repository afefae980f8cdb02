import Mathlib
import FrontierDirectorate.Terminal.Maps

/-!
# C entry points

`fd_ascii_options_init`, `fd_ascii_measure` and `fd_ascii_render` of
`ascii_renderer.cpp`. A null pointer is `none`; `memory` tells whether the C++
allocations of the call succeed.
-/
namespace FrontierDirectorate.Terminal
open Checks

end FrontierDirectorate.Terminal
