import SoloCall.Driver.Template

namespace SoloCall

namespace Driver

open Piece Template

def lit (s : String) : Piece := text s.toList

def pythonFunction : Template :=
  ofLines [
    [lit "import sys, json"],
    [lit "sys.dont_write_bytecode = True"],
    [lit "sys.path.insert(0, r'", hole .directory, lit "')"],
    [lit "try:"],
    [lit "    from ", hole .module, lit " import ", hole .function],
    [lit "    result = ", hole .function, lit "(", hole .arguments, lit ")"],
    [lit "    print(json.dumps(\x7b\"success\": True, \"result\": repr(result)\x7d))"],
    [lit "except Exception as e:"],
    [lit "    print(json.dumps(\x7b\"success\": False, \"error\": f\"\x7btype(e).__name__\x7d: \x7be\x7d\"\x7d))"]]

def pythonMethod : Template :=
  ofLines [
    [lit "import sys, json"],
    [lit "sys.dont_write_bytecode = True"],
    [lit "sys.path.insert(0, r'", hole .directory, lit "')"],
    [lit "try:"],
    [lit "    from ", hole .module, lit " import ", hole .className],
    [lit "    obj = ", hole .className, lit "()"],
    [lit "    result = obj.", hole .function, lit "(", hole .arguments, lit ")"],
    [lit "    print(json.dumps(\x7b\"success\": True, \"result\": repr(result)\x7d))"],
    [lit "except Exception as e:"],
    [lit "    print(json.dumps(\x7b\"success\": False, \"error\": f\"\x7btype(e).__name__\x7d: \x7be\x7d\"\x7d))"]]

def javaRunner : Template :=
  ofLines [
    [lit "public class ", hole .runner, lit " \x7b"],
    [lit "    public static void main(String[] args) \x7b"],
    [lit "        try \x7b"],
    [lit "            Object result = ", hole .className, lit ".", hole .function, lit "(",
      hole .arguments, lit ");"],
    [lit "            System.out.println(\"\x7b\\\"success\\\": true, \\\"result\\\": \" + quote(String.valueOf(result)) + \"\x7d\");"],
    [lit "        \x7d catch (Throwable e) \x7b"],
    [lit "            System.out.println(\"\x7b\\\"success\\\": false, \\\"error\\\": \" + quote(e.getClass().getSimpleName() + \": \" + e.getMessage()) + \"\x7d\");"],
    [lit "        \x7d"],
    [lit "    \x7d"],
    [],
    [lit "    private static String quote(String s) \x7b"],
    [lit "        StringBuilder sb = new StringBuilder(\"\\\"\");"],
    [lit "        for (char c : s.toCharArray()) \x7b"],
    [lit "            switch (c) \x7b"],
    [lit "                case '\"': sb.append(\"\\\\\\\"\"); break;"],
    [lit "                case '\\\\': sb.append(\"\\\\\\\\\"); break;"],
    [lit "                case '\\n': sb.append(\"\\\\n\"); break;"],
    [lit "                case '\\r': sb.append(\"\\\\r\"); break;"],
    [lit "                case '\\t': sb.append(\"\\\\t\"); break;"],
    [lit "                default:"],
    [lit "                    if (c < 0x20) sb.append(String.format(\"\\\\u%04x\", (int) c));"],
    [lit "                    else sb.append(c);"],
    [lit "            \x7d"],
    [lit "        \x7d"],
    [lit "        return sb.append('\"').toString();"],
    [lit "    \x7d"],
    [lit "\x7d"]]

def goRunner : Template :=
  ofLines [
    [lit "package main"],
    [],
    [lit "import ("],
    [lit "\t\"encoding/json\""],
    [lit "\t\"fmt\""],
    [lit ")"],
    [],
    [lit "func main() \x7b"],
    [lit "\tdefer func() \x7b"],
    [lit "\t\tif r := recover(); r != nil \x7b"],
    [lit "\t\t\tsentinelEmit(map[string]interface\x7b\x7d\x7b\"success\": false, \"error\": fmt.Sprintf(\"%v\", r)\x7d)"],
    [lit "\t\t\x7d"],
    [lit "\t\x7d()"],
    [],
    [lit "\tresult := ", hole .function, lit "(", hole .arguments, lit ")"],
    [lit "\tsentinelEmit(map[string]interface\x7b\x7d\x7b\"success\": true, \"result\": fmt.Sprintf(\"%v\", result)\x7d)"],
    [lit "\x7d"],
    [],
    [lit "func sentinelEmit(payload map[string]interface\x7b\x7d) \x7b"],
    [lit "\tout, _ := json.Marshal(payload)"],
    [lit "\tfmt.Println(string(out))"],
    [lit "\x7d"]]

def cRunner : Template :=
  ofLines [
    [lit "#include <stdio.h>"],
    [lit "#include <stdlib.h>"],
    [lit "#include <string.h>"],
    [],
    [hole .declaration],
    [lit "#include \"", hole .file, lit "\""],
    [],
    [lit "static void sentinel_emit(int ok, const char *text)"],
    [lit "\x7b"],
    [lit "    const char *p;"],
    [lit "    printf(\"\x7b\\\"success\\\": %s, \\\"%s\\\": \\\"\", ok ? \"true\" : \"false\", ok ? \"result\" : \"error\");"],
    [lit "    for (p = text; *p; p++) \x7b"],
    [lit "        switch (*p) \x7b"],
    [lit "        case '\"': fputs(\"\\\\\\\"\", stdout); break;"],
    [lit "        case '\\\\': fputs(\"\\\\\\\\\", stdout); break;"],
    [lit "        case '\\n': fputs(\"\\\\n\", stdout); break;"],
    [lit "        case '\\r': fputs(\"\\\\r\", stdout); break;"],
    [lit "        case '\\t': fputs(\"\\\\t\", stdout); break;"],
    [lit "        default:"],
    [lit "            if ((unsigned char)*p < 0x20)"],
    [lit "                printf(\"\\\\u%04x\", (unsigned char)*p);"],
    [lit "            else"],
    [lit "                putchar(*p);"],
    [lit "        \x7d"],
    [lit "    \x7d"],
    [lit "    puts(\"\\\"\x7d\");"],
    [lit "\x7d"],
    [],
    [lit "#define SENTINEL_FORMAT(x) _Generic((x), \\"],
    [lit "    char *: \"%s\", const char *: \"%s\", \\"],
    [lit "    float: \"%g\", double: \"%g\", long double: \"%Lg\", \\"],
    [lit "    char: \"%c\", unsigned int: \"%u\", \\"],
    [lit "    long: \"%ld\", unsigned long: \"%lu\", \\"],
    [lit "    long long: \"%lld\", unsigned long long: \"%llu\", \\"],
    [lit "    default: \"%d\")"],
    [],
    [lit "int main(void)"],
    [lit "\x7b"],
    [lit "    char sentinel_buf[4096];"],
    [lit "    __typeof__(", hole .function, lit "(", hole .arguments,
      lit ")) sentinel_result = ", hole .function, lit "(", hole .arguments, lit ");"],
    [lit "    snprintf(sentinel_buf, sizeof sentinel_buf, SENTINEL_FORMAT(sentinel_result), sentinel_result);"],
    [lit "    sentinel_emit(1, sentinel_buf);"],
    [lit "    return 0;"],
    [lit "\x7d"]]

def cppRunner : Template :=
  ofLines [
    [lit "#include <cstdio>"],
    [lit "#include <exception>"],
    [lit "#include <iostream>"],
    [lit "#include <sstream>"],
    [lit "#include <string>"],
    [],
    [lit "#include \"", hole .file, lit "\""],
    [],
    [lit "static std::string sentinel_quote(const std::string &s)"],
    [lit "\x7b"],
    [lit "    std::string out = \"\\\"\";"],
    [lit "    for (char c : s) \x7b"],
    [lit "        switch (c) \x7b"],
    [lit "        case '\"': out += \"\\\\\\\"\"; break;"],
    [lit "        case '\\\\': out += \"\\\\\\\\\"; break;"],
    [lit "        case '\\n': out += \"\\\\n\"; break;"],
    [lit "        case '\\r': out += \"\\\\r\"; break;"],
    [lit "        case '\\t': out += \"\\\\t\"; break;"],
    [lit "        default:"],
    [lit "            if (static_cast<unsigned char>(c) < 0x20) \x7b"],
    [lit "                char buf[8];"],
    [lit "                std::snprintf(buf, sizeof buf, \"\\\\u%04x\", static_cast<unsigned char>(c));"],
    [lit "                out += buf;"],
    [lit "            \x7d else \x7b"],
    [lit "                out += c;"],
    [lit "            \x7d"],
    [lit "        \x7d"],
    [lit "    \x7d"],
    [lit "    return out + \"\\\"\";"],
    [lit "\x7d"],
    [],
    [lit "int main()"],
    [lit "\x7b"],
    [lit "    try \x7b"],
    [lit "        auto sentinel_result = ", hole .function, lit "(", hole .arguments, lit ");"],
    [lit "        std::ostringstream oss;"],
    [lit "        oss << sentinel_result;"],
    [lit "        std::cout << \"\x7b\\\"success\\\": true, \\\"result\\\": \" << sentinel_quote(oss.str()) << \"\x7d\" << std::endl;"],
    [lit "    \x7d catch (const std::exception &e) \x7b"],
    [lit "        std::cout << \"\x7b\\\"success\\\": false, \\\"error\\\": \" << sentinel_quote(e.what()) << \"\x7d\" << std::endl;"],
    [lit "    \x7d catch (...) \x7b"],
    [lit "        std::cout << \"\x7b\\\"success\\\": false, \\\"error\\\": \\\"Unknown error\\\"\x7d\" << std::endl;"],
    [lit "    \x7d"],
    [lit "    return 0;"],
    [lit "\x7d"]]

def scriptRunner : Template :=
  ofLines [
    [lit "const sentinelEmit = (payload) => console.log(JSON.stringify(payload));"],
    [],
    [lit "(async () => \x7b"],
    [lit "    try \x7b"],
    [lit "        const mod = require(", hole .path, lit ");"],
    [lit "        const fn = mod[", hole .functionLiteral, lit "]"],
    [lit "            || (mod.default && mod.default[", hole .functionLiteral, lit "])"],
    [lit "            || (typeof mod.default === 'function' && mod.default.name === ",
      hole .functionLiteral, lit " ? mod.default : undefined)"],
    [lit "            || (typeof mod === 'function' && mod.name === ", hole .functionLiteral,
      lit " ? mod : undefined);"],
    [lit "        if (typeof fn !== 'function') throw new Error('Function not found: ' + ",
      hole .functionLiteral, lit ");"],
    [lit "        const result = await fn(", hole .arguments, lit ");"],
    [lit "        sentinelEmit(\x7b success: true, result: String(result) \x7d);"],
    [lit "    \x7d catch (e) \x7b"],
    [lit "        const kind = e && e.name ? e.name : 'Error';"],
    [lit "        const message = e && e.message !== undefined ? e.message : String(e);"],
    [lit "        sentinelEmit(\x7b success: false, error: kind + ': ' + message \x7d);"],
    [lit "    \x7d"],
    [lit "\x7d)();"]]

end Driver

end SoloCall
