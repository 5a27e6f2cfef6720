import Bindery.Code.Line

/-!
# Fixed parts of the JavaScript module

The helpers that read and write linear memory, and a small implementation of the
system interface that command-style modules expect. They are the same in every
module. A call of an exported function is a value, here and wherever else there is
one, to be compared with what the module exports.
-/

namespace Bindery.JavaScript

/-- A call of a function that the module exports. -/
structure ExportCall where
  symbol : String
  args : List String
deriving DecidableEq, Repr

namespace ExportCall

/-- The exported function itself, which is undefined where there is none. -/
def function (c : ExportCall) : String := "_wasm.exports." ++ c.symbol

/-- The expression. -/
def text (c : ExportCall) : String := c.function ++ "(" ++ Text.commaSep c.args ++ ")"

end ExportCall

/-- The call that allocates memory. -/
def mallocCall : ExportCall := ⟨"malloc", ["size"]⟩

/-- The call that frees memory. -/
def freeCall : ExportCall := ⟨"free", ["ptr"]⟩

/-- The helpers for linear memory: allocation, texts, buffers and vectors. -/
def memoryHelpers : List Line :=
  Code.lines [
    "const _encoder = new TextEncoder();",
    "const _decoder = new TextDecoder();",
    "",
    "let _wasm = null;",
    "",
    "// Memory management helpers",
    "function _malloc(size) \x7b",
    "  return " ++ mallocCall.text ++ ";",
    "\x7d",
    "",
    "function _free(ptr) \x7b",
    "  " ++ freeCall.text ++ ";",
    "\x7d",
    "",
    "function _memoryBuffer() \x7b",
    "  return _wasm.exports.memory.buffer;",
    "\x7d",
    "",
    "// A fresh view: any allocation may grow memory and detach older ones.",
    "function _view() \x7b",
    "  return new DataView(_memoryBuffer());",
    "\x7d",
    "",
    "// String marshalling",
    "function _encodeString(str) \x7b",
    "  const bytes = _encoder.encode(str);",
    "  const ptr = _malloc(bytes.length + 1);",
    "  const dest = new Uint8Array(_memoryBuffer(), ptr, bytes.length + 1);",
    "  dest.set(bytes);",
    "  dest[bytes.length] = 0;",
    "  return ptr;",
    "\x7d",
    "",
    "function _decodeString(ptr) \x7b",
    "  if (ptr === 0) return '';",
    "  const mem = new Uint8Array(_memoryBuffer());",
    "  let end = ptr;",
    "  while (mem[end] !== 0) end++;",
    "  return _decoder.decode(mem.subarray(ptr, end));",
    "\x7d",
    "",
    "function _allocString(str, allocs) \x7b",
    "  const ptr = _encodeString(str ?? '');",
    "  allocs.push(ptr);",
    "  return ptr;",
    "\x7d",
    "",
    "// Buffer marshalling",
    "function _copyBufferToWasm(typedArray) \x7b",
    "  const bytes = new Uint8Array(typedArray.buffer, typedArray.byteOffset, typedArray.byteLength);",
    "  const ptr = _malloc(bytes.length);",
    "  new Uint8Array(_memoryBuffer(), ptr, bytes.length).set(bytes);",
    "  return [ptr, typedArray.length];",
    "\x7d",
    "",
    "function _copyBufferFromWasm(ptr, typedArray) \x7b",
    "  const bytes = new Uint8Array(typedArray.buffer, typedArray.byteOffset, typedArray.byteLength);",
    "  bytes.set(new Uint8Array(_memoryBuffer(), ptr, bytes.length));",
    "\x7d",
    "",
    "// Record vectors",
    "function _readArray(ptr, count, stride, read) \x7b",
    "  const out = [];",
    "  if (ptr === 0) return out;",
    "  for (let i = 0; i < count; i++) out.push(read(ptr + i * stride));",
    "  return out;",
    "\x7d",
    "",
    "function _writeArray(items, stride, write, allocs) \x7b",
    "  if (!items || items.length === 0) return 0;",
    "  const ptr = _malloc(items.length * stride);",
    "  allocs.push(ptr);",
    "  items.forEach((item, i) => write(item, ptr + i * stride));",
    "  return ptr;",
    "\x7d",
    ""]

/-- The system interface for command-style modules. -/
def systemInterface : List Line :=
  Code.lines [
    "// Minimal WASI snapshot_preview1 implementation for command-style (wasip1) modules.",
    "function _buildWasiImports() \x7b",
    "  const ERRNO_SUCCESS = 0;",
    "  const ERRNO_BADF = 8;",
    "  const ERRNO_NOSYS = 52;",
    "  return \x7b",
    "    fd_write(fd, iovsPtr, iovsLen, nwrittenPtr) \x7b",
    "      const mem = _memoryBuffer();",
    "      const view = new DataView(mem);",
    "      let written = 0;",
    "      for (let i = 0; i < iovsLen; i++) \x7b",
    "        const base = iovsPtr + i * 8;",
    "        const ptr = view.getUint32(base, true);",
    "        const len = view.getUint32(base + 4, true);",
    "        if (len > 0 && (fd === 1 || fd === 2)) \x7b",
    "          const text = _decoder.decode(new Uint8Array(mem, ptr, len));",
    "          (fd === 2 ? console.error : console.log)(text.replace(/\\n$/, ''));",
    "        \x7d",
    "        written += len;",
    "      \x7d",
    "      view.setUint32(nwrittenPtr, written, true);",
    "      return ERRNO_SUCCESS;",
    "    \x7d,",
    "    fd_read: () => ERRNO_NOSYS,",
    "    fd_seek: () => ERRNO_NOSYS,",
    "    fd_close: () => ERRNO_SUCCESS,",
    "    fd_fdstat_get: () => ERRNO_NOSYS,",
    "    fd_fdstat_set_flags: () => ERRNO_NOSYS,",
    "    // BADF: no preopened directories.",
    "    fd_prestat_get: () => ERRNO_BADF,",
    "    fd_prestat_dir_name: () => ERRNO_BADF,",
    "    path_open: () => ERRNO_NOSYS,",
    "    path_filestat_get: () => ERRNO_NOSYS,",
    "    environ_sizes_get(countPtr, bufSizePtr) \x7b",
    "      const view = _view();",
    "      view.setUint32(countPtr, 0, true);",
    "      view.setUint32(bufSizePtr, 0, true);",
    "      return ERRNO_SUCCESS;",
    "    \x7d,",
    "    environ_get(environPtr) \x7b",
    "      _view().setUint32(environPtr, 0, true);",
    "      return ERRNO_SUCCESS;",
    "    \x7d,",
    "    args_sizes_get(argcPtr, bufSizePtr) \x7b",
    "      const view = _view();",
    "      view.setUint32(argcPtr, 0, true);",
    "      view.setUint32(bufSizePtr, 0, true);",
    "      return ERRNO_SUCCESS;",
    "    \x7d,",
    "    args_get(argvPtr) \x7b",
    "      _view().setUint32(argvPtr, 0, true);",
    "      return ERRNO_SUCCESS;",
    "    \x7d,",
    "    // Must not return: command modules trap right after proc_exit.",
    "    proc_exit: (code) => \x7b",
    "      const e = new Error('proc_exit:' + code);",
    "      e.wasiExitCode = code;",
    "      throw e;",
    "    \x7d,",
    "    random_get(bufPtr, bufLen) \x7b",
    "      crypto.getRandomValues(new Uint8Array(_memoryBuffer(), bufPtr, bufLen));",
    "      return ERRNO_SUCCESS;",
    "    \x7d,",
    "    clock_time_get(_clockId, _precision, timePtr) \x7b",
    "      _view().setBigUint64(timePtr, BigInt(Date.now()) * 1_000_000n, true);",
    "      return ERRNO_SUCCESS;",
    "    \x7d,",
    "    clock_res_get(_clockId, resPtr) \x7b",
    "      _view().setBigUint64(resPtr, 1_000_000n, true);",
    "      return ERRNO_SUCCESS;",
    "    \x7d,",
    "    sched_yield: () => ERRNO_SUCCESS,",
    "    poll_oneoff: () => ERRNO_NOSYS,",
    "    sock_accept: () => ERRNO_NOSYS,",
    "    sock_recv: () => ERRNO_NOSYS,",
    "    sock_send: () => ERRNO_NOSYS,",
    "    sock_shutdown: () => ERRNO_NOSYS,",
    "  \x7d;",
    "\x7d",
    ""]

end Bindery.JavaScript
