import Chip8.Word

/-! The 34 instructions. -/
namespace Chip8

inductive Instruction where
  /-- Code `00E0`: darkens the screen. -/
  | clear
  /-- Code `00EE`: returns from a subroutine. -/
  | ret
  /-- Code `1nnn`: jumps to an address. -/
  | jump (target : Address)
  /-- Code `2nnn`: calls a subroutine. -/
  | call (target : Address)
  /-- Code `3xbb`: skips the next instruction if `vX` is the byte. -/
  | skipIfByte (x : Register) (b : UInt8)
  /-- Code `4xbb`: skips the next instruction unless `vX` is the byte. -/
  | skipUnlessByte (x : Register) (b : UInt8)
  /-- Code `5xy0`: skips the next instruction if `vX` is `vY`. -/
  | skipIfEqual (x y : Register)
  /-- Code `6xbb`: puts a byte into `vX`. -/
  | setByte (x : Register) (b : UInt8)
  /-- Code `7xbb`: adds a byte to `vX` and leaves `vF` alone. -/
  | addByte (x : Register) (b : UInt8)
  /-- Code `8xy0`: copies `vY` to `vX`. -/
  | copy (x y : Register)
  /-- Code `8xy1`: bitwise or of `vX` and `vY`, into `vX`. -/
  | or (x y : Register)
  /-- Code `8xy2`: bitwise and of `vX` and `vY`, into `vX`. -/
  | and (x y : Register)
  /-- Code `8xy3`: bitwise exclusive or of `vX` and `vY`, into `vX`. -/
  | xor (x y : Register)
  /-- Code `8xy4`: adds `vY` to `vX`; the carry goes to `vF`. -/
  | add (x y : Register)
  /-- Code `8xy5`: takes `vY` from `vX`; `vF` tells whether no borrow was needed. -/
  | sub (x y : Register)
  /-- Code `8xy6`: shifts right by one; the bit shifted out goes to `vF`. -/
  | shiftRight (x y : Register)
  /-- Code `8xy7`: takes `vX` from `vY`; `vF` tells whether no borrow was needed. -/
  | subFrom (x y : Register)
  /-- Code `8xyE`: shifts left by one; the bit shifted out goes to `vF`. -/
  | shiftLeft (x y : Register)
  /-- Code `9xy0`: skips the next instruction unless `vX` is `vY`. -/
  | skipUnlessEqual (x y : Register)
  /-- Code `Annn`: sets `I`. -/
  | setIndex (target : Address)
  /-- Code `Bnnn`: jumps `v0` bytes past the address. -/
  | jumpFrom (target : Address)
  /-- Code `Cxbb`: the bits of a random byte that the given byte lets through. -/
  | random (x : Register) (b : UInt8)
  /-- Code `Dxyn`: draws the `n` bytes from `I` on at `(vX, vY)`; `vF` tells whether a lit pixel
  went dark. -/
  | draw (x y : Register) (n : Fin 16)
  /-- Code `Ex9E`: skips the next instruction if the key in `vX` is held. -/
  | skipIfKey (x : Register)
  /-- Code `ExA1`: skips the next instruction unless the key in `vX` is held. -/
  | skipUnlessKey (x : Register)
  /-- Code `Fx07`: copies the delay timer to `vX`. -/
  | getDelay (x : Register)
  /-- Code `Fx0A`: waits until a key goes down and puts it into `vX`. -/
  | awaitKey (x : Register)
  /-- Code `Fx15`: sets the delay timer to `vX`. -/
  | setDelay (x : Register)
  /-- Code `Fx18`: sets the sound timer to `vX`. -/
  | setSound (x : Register)
  /-- Code `Fx1E`: adds `vX` to `I`. -/
  | addIndex (x : Register)
  /-- Code `Fx29`: points `I` at the font character for `vX`. -/
  | pointAtGlyph (x : Register)
  /-- Code `Fx33`: the three decimal digits of `vX` go to `I` and the bytes after it. -/
  | decimalDigits (x : Register)
  /-- Code `Fx55`: `v0` to `vX` go to `I` and the bytes after it. -/
  | store (x : Register)
  /-- Code `Fx65`: `v0` to `vX` come from `I` and the bytes after it. -/
  | fetch (x : Register)
  deriving DecidableEq

end Chip8
